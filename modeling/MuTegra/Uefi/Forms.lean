/- Unit: MuTegra/Uefi/Forms
   scope: the form language of the firmware
   digest: Statements under conditions, what a browser shows of them and what it lets one choose. -/

import Mathlib.Data.List.Basic

set_option autoImplicit false
set_option relaxedAutoImplicit false

namespace MuTegra.Uefi.Forms

/-- A statement of a form: an entry, or statements that a condition leaves out or locks. -/
inductive Statement (C E : Type) where
  | entry (e : E)
  | suppressIf (c : C) (body : List (Statement C E))
  | grayOutIf (c : C) (body : List (Statement C E))

variable {C E : Type}

mutual

def Statement.displayed (holds : C → Bool) : Statement C E → List E
  | .entry e => [e]
  | .suppressIf c body => if holds c then [] else displayed holds body
  | .grayOutIf _ body => displayed holds body

def displayed (holds : C → Bool) : List (Statement C E) → List E
  | [] => []
  | s :: form => s.displayed holds ++ displayed holds form

end

mutual

def Statement.selectable (holds : C → Bool) : Statement C E → List E
  | .entry e => [e]
  | .suppressIf c body => if holds c then [] else selectable holds body
  | .grayOutIf c body => if holds c then [] else selectable holds body

def selectable (holds : C → Bool) : List (Statement C E) → List E
  | [] => []
  | s :: form => s.selectable holds ++ selectable holds form

end

end MuTegra.Uefi.Forms
