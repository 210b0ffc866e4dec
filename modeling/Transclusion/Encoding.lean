import Transclusion.Failure
import Transclusion.Text.Surrogates

/-!
This module contains the encodings of texts that go out: to a file, to the printed output, or to the
system as a name. A text with a character that its encoding does not take is a failure.
-/

namespace Transclusion

structure Encoding where
  name : Text
  reason : Text
  takes : Char → Bool
  takes_of_ascii {c : Char} : c.toNat < 128 → takes c = true

namespace Encoding

variable [Surrogates]

theorem code?_of_ascii {c : Char} (h : c.toNat < 128) : Surrogates.code? c = none := by
  cases hcode : Surrogates.code? c with
  | none => rfl
  | some n => exact absurd (Surrogates.not_ascii hcode) (Nat.not_le.mpr h)

def utf8 : Encoding where
  name := "utf-8"
  reason := "surrogates not allowed"
  takes c := (Surrogates.code? c).isNone
  takes_of_ascii h := by simp [code?_of_ascii h]

-- In the name of a file the surrogates from U+DC80 on are the bytes that are no UTF-8.
def fileNames : Encoding where
  name := "utf-8"
  reason := "surrogates not allowed"
  takes c := (Surrogates.code? c).all fun n => 0xdc80 ≤ n && n ≤ 0xdcff
  takes_of_ascii h := by simp [code?_of_ascii h]

def escapeOf (c : Char) : Text :=
  let n := (Surrogates.code? c).getD c.toNat
  if n < 0x100 then "\\x" ++ Text.ofNatHex 2 n
  else if n < 0x10000 then "\\u" ++ Text.ofNatHex 4 n
  else "\\U" ++ Text.ofNatHex 8 n

def complaint (e : Encoding) (text : Text) : Text :=
  let start := (text.takeWhile e.takes).length
  let refused := (text.drop start).takeWhile (!e.takes ·)
  let place : Text :=
    match refused with
    | [c] => "character '" ++ escapeOf c ++ "' in position " ++ Text.ofNat start
    | _ =>
      "characters in position " ++ Text.ofNat start ++ "-" ++
        Text.ofNat (start + refused.length - 1)
  "'" ++ e.name ++ "' codec can't encode " ++ place ++ ": " ++ e.reason

def check (e : Encoding) (text : Text) : Except Failure Unit :=
  if text.all e.takes then .ok () else .error (.unencodable (e.complaint text))

theorem check_eq_ok_iff {e : Encoding} {text : Text}
    : e.check text = .ok () ↔ ∀ c ∈ text, e.takes c = true := by
  unfold check
  split
  next h => simpa using h
  next h => simpa using h

theorem eq_of_check_eq_error {e : Encoding} {text : Text} {f : Failure}
    (h : e.check text = .error f) : f = .unencodable (e.complaint text) := by
  unfold check at h
  split at h
  . cases h
  . exact (Except.error.inj h).symm

end Encoding
end Transclusion
