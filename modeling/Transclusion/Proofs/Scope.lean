import Transclusion.Proofs.OrderedMap
import Transclusion.Scope

/-!
This module contains what several scopes on top of each other bind: under every name the values of
all of them, one after the other (`get?_foldl_merge`), and the names in the order in which they come
up (`keys_foldl_merge`). Hence scopes with the merge are a monoid (`merge_monoid`).
-/

namespace Transclusion

def joined : List Text → Option Text
  | [] => none
  | value :: values => some (value ++ values.flatten)

theorem joined_cons_cons (a b : Text) (values : List Text)
    : joined (a :: b :: values) = joined ((a ++ b) :: values) := by
  simp [joined]

namespace Scope

variable {entries : List (Text × Text)} {base : Scope} {name : Text}

theorem get?_foldl_extend (entries : List (Text × Text)) (base : Scope) (name : Text)
    : (entries.foldl (fun scope (name, value) => scope.extend name value) base).get? name
        =
      joined ((base.get? name).toList ++ (entries.filter (·.1 == name)).map Prod.snd) := by
  induction entries generalizing base with
  | nil => cases h : base.get? name <;> simp [joined, h]
  | cons entry entries ih =>
    rw [List.foldl_cons, ih, get?_extend, List.filter_cons]
    by_cases h : entry.1 = name
    . cases hbase : base.get? name <;> simp [h, hbase, joined_cons_cons]
    . have h' : ¬ name = entry.1 := fun h' => h h'.symm
      simp [h, h']

theorem filter_key_eq_lookup (h : (entries.map Prod.fst).Nodup) (name : Text)
    : (entries.filter (·.1 == name)).map Prod.snd = (entries.lookup name).toList := by
  induction entries with
  | nil => rfl
  | cons entry entries ih =>
    obtain ⟨key, value⟩ := entry
    rw [List.map_cons, List.nodup_cons] at h
    by_cases hkey : key = name
    . rw [← hkey]
      have hnone : entries.filter (·.1 == key) = [] := by
        rw [List.filter_eq_nil_iff]
        intro entry hentry hkey
        rw [beq_iff_eq] at hkey
        exact h.1 (List.mem_map.mpr ⟨entry, hentry, hkey⟩)
      simp [hnone]
    . have hkey' : ¬ name = key := fun h => hkey h.symm
      simp [List.lookup_cons, hkey, beq_false_of_ne hkey', ih h.2]

theorem get?_merge (base overlay : Scope) (name : Text)
    : (base.merge overlay).get? name
        =
      joined ((base.get? name).toList ++ (overlay.get? name).toList) := by
  unfold merge
  rw [get?_foldl_extend, filter_key_eq_lookup overlay.nodup]
  rfl

theorem get?_foldl_merge (layers : List Scope) (base : Scope) (name : Text)
    : (layers.foldl merge base).get? name = joined ((base :: layers).filterMap (·.get? name)) := by
  induction layers generalizing base with
  | nil => cases h : base.get? name <;> simp [joined, h]
  | cons layer layers ih =>
    rw [List.foldl_cons, ih, List.filterMap_cons, get?_merge]
    cases hbase : base.get? name <;> cases hlayer : layer.get? name
    all_goals simp [hbase, hlayer, joined]

theorem eraseDups_of_nodup {keys : List Text} (h : keys.Nodup) : keys.eraseDups = keys := by
  induction keys with
  | nil => rfl
  | cons key keys ih =>
    rw [List.nodup_cons] at h
    rw [List.eraseDups_cons, List.filter_eq_self.mpr, ih h.2]
    intro other hother
    simp only [Bool.not_eq_true', beq_eq_false_iff_ne, ne_eq]
    intro heq
    exact h.1 (heq ▸ hother)

theorem keys_foldl_extend (entries : List (Text × Text)) (base : Scope)
    : (entries.foldl (fun scope (name, value) => scope.extend name value) base).keys
        =
      (base.keys ++ entries.map Prod.fst).eraseDups := by
  induction entries generalizing base with
  | nil => simp [eraseDups_of_nodup base.keys_nodup]
  | cons entry entries ih =>
    rw [List.foldl_cons, ih, keys_extend, List.map_cons]
    split
    next hmem =>
      rw [List.eraseDups_append, List.eraseDups_append, List.cons_removeAll]
      simp [hmem]
    next => simp

theorem foldl_merge_eq (layers : List Scope) (base : Scope)
    : layers.foldl merge base
        =
      (layers.flatMap (·.entries)).foldl (fun scope (name, value) => scope.extend name value) base := by
  induction layers generalizing base with
  | nil => rfl
  | cons layer layers ih =>
    rw [List.foldl_cons, ih, List.flatMap_cons, List.foldl_append]
    rfl

theorem keys_foldl_merge (layers : List Scope) (base : Scope)
    : (layers.foldl merge base).keys = ((base :: layers).flatMap (·.keys)).eraseDups := by
  rw [foldl_merge_eq, keys_foldl_extend, List.map_flatMap, List.flatMap_cons]
  rfl

theorem map_get?_keys (scope : Scope)
    : scope.keys.map (fun name => (name, scope.get? name))
        =
      scope.entries.map fun entry => (entry.1, some entry.2) := by
  unfold OrderedMap.keys
  rw [List.map_map]
  apply List.map_congr_left
  intro entry hentry
  have hget : scope.get? entry.1 = some entry.2 := OrderedMap.mem_entries_iff.mp hentry
  simp [hget]

theorem eq_of_keys_of_get? {scope other : Scope} (hkeys : scope.keys = other.keys)
    (hget : ∀ name, scope.get? name = other.get? name) : scope = other := by
  have hpairs := map_get?_keys scope
  rw [hkeys, funext fun name => congrArg (Prod.mk name) (hget name), map_get?_keys other] at hpairs
  apply OrderedMap.ext
  apply (List.map_inj_right _).mp hpairs.symm
  intro entry entry' h
  rw [Prod.mk.injEq, Option.some.injEq] at h
  exact Prod.ext h.1 h.2

theorem keys_merge (base overlay : Scope)
    : (base.merge overlay).keys = base.keys ++ overlay.keys.filter (· ∉ base.keys) := by
  have hnew : overlay.keys.removeAll base.keys = overlay.keys.filter (· ∉ base.keys) := by
    apply List.filter_congr
    simp
  unfold merge
  rw [keys_foldl_extend, List.eraseDups_append, eraseDups_of_nodup base.keys_nodup]
  change base.keys ++ (overlay.keys.removeAll base.keys).eraseDups = _
  rw [hnew, eraseDups_of_nodup (overlay.keys_nodup.filter _)]

theorem get?_merge_assoc (a b c : Scope) (name : Text)
    : ((a.merge b).merge c).get? name = (a.merge (b.merge c)).get? name := by
  simp only [get?_merge]
  cases a.get? name <;> cases b.get? name <;> cases c.get? name
  all_goals simp [joined]

theorem keys_merge_assoc (a b c : Scope)
    : ((a.merge b).merge c).keys = (a.merge (b.merge c)).keys := by
  simp only [keys_merge, List.filter_append, List.filter_filter, List.append_assoc, List.mem_append,
    List.mem_filter]
  congr 2
  apply List.filter_congr
  intro name hname
  by_cases ha : name ∈ a.keys <;> simp [ha]

theorem empty_merge (overlay : Scope) : merge ∅ overlay = overlay := by
  apply eq_of_keys_of_get?
  . simp [keys_merge]
  . intro name
    rw [get?_merge]
    cases overlay.get? name <;> simp [joined]

/-- Scopes with the merge are a monoid, order included. The names of the overlay that the base does
not have come last, and a name keeps the value that it has in the base as the first part of the
merged one. -/
theorem merge_monoid (a b c : Scope)
    : (a.merge b).merge c = a.merge (b.merge c) ∧
        a.merge ∅ = a ∧ merge ∅ a = a ∧
        (a.merge b).keys = a.keys ++ b.keys.filter (· ∉ a.keys) ∧
        (∀ name, (a.merge b).get? name
          = joined ((a.get? name).toList ++ (b.get? name).toList)) ∧
        ∀ name value, a.get? name = some value →
          ∃ merged, (a.merge b).get? name = some merged ∧ value <+: merged := by
  refine ⟨?_, merge_empty a, empty_merge a, keys_merge a b, get?_merge a b, ?_⟩
  . exact eq_of_keys_of_get? (keys_merge_assoc a b c) (get?_merge_assoc a b c)
  . intro name value hvalue
    refine ⟨value ++ (b.get? name).getD [], ?_, List.prefix_append _ _⟩
    rw [get?_merge, hvalue]
    cases b.get? name <;> simp [joined]

end Scope
end Transclusion
