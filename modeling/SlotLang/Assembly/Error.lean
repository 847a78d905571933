import SlotLang.Diagnostic
import SlotLang.Text.Decimal

/-!
# Errors of assembly

The ways in which labels are misused.
-/

namespace SlotLang

/-- Why directives do not make a module. -/
inductive AssemblyError where
  /-- A jump names a label that has no place. -/
  | unmarkedLabel (label : UInt32)
  /-- A label was given a second place. -/
  | labelMarkedTwice (label : UInt32)
  /-- A label was given a place before it was defined. -/
  | unknownLabel (label : UInt32)
deriving DecidableEq, Repr

/-- The error as shown to the user. -/
def AssemblyError.diagnostic : AssemblyError → Diagnostic
  | unmarkedLabel label =>
      .plain "spek::emit::unmarked_label"
        ("label " ++ Text.Decimal.ofNat label.toNat ++ " is used by a jump but never marked")
  | labelMarkedTwice label =>
      .plain "spek::emit::label_marked_twice"
        ("label " ++ Text.Decimal.ofNat label.toNat ++ " is marked twice")
  | unknownLabel label =>
      .plain "spek::emit::unknown_label"
        ("label " ++ Text.Decimal.ofNat label.toNat ++ " was never defined by this emitter")

end SlotLang
