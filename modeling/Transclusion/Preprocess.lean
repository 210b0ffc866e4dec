import Transclusion.Expansion

/-!
This module contains the whole treatment of a document: first its old regions are taken out, then
its directives are expanded.
-/

namespace Transclusion
namespace Preprocess

open Expansion

def findingRecord : Region.Finding → Log.Record
  | .region r =>
    { level := Log.info
      source := "powerups.core.expansion.cleanup"
      message := "Removed generated region " ++ r.name ++ " (" ++ r.id ++ ")" }
  | .unclosed name id =>
    { level := Log.debug
      source := "powerups.core.expansion.cleanup"
      message := "No closing marker for " ++ name ++ " " ++ id ++ ", leaving region" }

def cleanup (text : Text) : Run Text := do
  modify fun p => { p with log := p.log ++ (Region.survey text).map findingRecord }
  updateReport fun r => { r with regionsRemoved := r.regionsRemoved + (Region.regions text).length }
  return Region.clean text

def processed (env : Environment) (globals : Scope) (text : Text) : Run Expanded := do
  let cleaned ← cleanup text
  let result ← expanded env false globals cleaned
  modify fun p => { p with
    log := p.log ++ [{
      level := Log.debug
      source := "powerups.core.expansion.preprocessor"
      message := p.report.summary }] }
  return result

def process (env : Environment) (globals : Scope) (text : Text) : Run Text := do
  return (← processed env globals text).text

def start {α : Type} (document : Text) (idsDrawn : Nat) (step : Run α) :
    Except Failure α × Progress :=
  step.exec { report := { document }, idsDrawn }

end Preprocess
end Transclusion
