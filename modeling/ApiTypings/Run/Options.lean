import ApiTypings.Path.Basic

/-!
This module contains the options of a run and what becomes of its target.
-/

namespace ApiTypings

inductive Overwrite
  | ask
  | always
  | never
deriving DecidableEq, Repr

structure Options where
  source : Path := .ofString "src/apis/index.json"
  output : Option Path := none
  overwrite : Overwrite := .ask
  dryRun : Bool := false
deriving DecidableEq, Repr

inductive Outcome
  | created
  | overwritten
  | skipped
deriving DecidableEq, Repr

end ApiTypings
