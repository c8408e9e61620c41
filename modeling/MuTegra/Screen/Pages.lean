/- Unit: MuTegra/Screen/Pages
   source: NvidiaPkg/Library/FrameBufferSerialPortLib/FrameBufferSerialPortLib.c
   digest: A log of short lines is shown page by page, each page after the first a line lower. -/

import MuTegra.Screen.TextScreen
import Mathlib.Data.List.Induction

set_option autoImplicit false
set_option relaxedAutoImplicit false

namespace MuTegra.Screen.Pages

open MuTegra.Screen.Framebuffer
open MuTegra.Screen.Cursor
open MuTegra.Screen.TextScreen

/-- A character that takes a cell wherever it stands, and one that may stand inside a line. -/
def Printable (ch : UInt8) : Prop := 32 ≤ ch.toNat ∧ ch.toNat ≤ 127

/-- A line that is shown as it is written: it does not wrap and does not begin with a space. -/
structure PlainLine (columns : ℕ) (text : List UInt8) : Prop where
  printable : ∀ ch ∈ text, Printable ch
  short : text.length < columns
  unindented : text.head? ≠ some 0x20

def logText (lines : List (List UInt8)) : List UInt8 := lines.flatMap (· ++ [0x0a])

/-- Where the cursor is behind `n` lines. The newline that leaves the last row erases the screen
and is then printed again, so every page but the first begins on its second row. -/
def rowAfter (rows n : ℕ) : ℕ := if n < rows then n else 1 + (n - rows) % (rows - 1)

/-- The character of the log that a cell shows behind `n` lines. -/
def shownAt (rows : ℕ) (lines : List (List UInt8)) (row column : ℕ) : Option UInt8 :=
  if row < rowAfter rows lines.length ∧ (lines.length < rows ∨ 0 < row) then
    lines[lines.length - rowAfter rows lines.length + row]?.bind (·[column]?)
  else none

variable {rows n : ℕ}

theorem next_mod {a m : ℕ} (hm : 0 < m) :
    (a + 1) % m = if a % m + 1 < m then a % m + 1 else 0 := by
  have hlt := Nat.mod_lt a hm
  split
  · next hroom => rw [← Nat.mod_add_mod, Nat.mod_eq_of_lt hroom]
  · next hfull =>
      have hlast : a % m + 1 = m := by omega
      rw [← Nat.mod_add_mod, hlast, Nat.mod_self]

theorem rowAfter_le (hrows : 2 ≤ rows) : rowAfter rows n ≤ n := by
  have hmod := Nat.mod_le (n - rows) (rows - 1)
  rw [rowAfter]
  split <;> omega

theorem rowAfter_succ (hrows : 2 ≤ rows) :
    rowAfter rows (n + 1) = if rowAfter rows n + 1 < rows then rowAfter rows n + 1 else 1 := by
  by_cases hfirst : n + 1 < rows
  · have hbefore : rowAfter rows n = n := if_pos (by omega)
    rw [rowAfter, if_pos hfirst, hbefore, if_pos hfirst]
  by_cases hlast : n + 1 = rows
  · have hbefore : rowAfter rows n = n := if_pos (by omega)
    rw [rowAfter, if_neg hfirst, hbefore, if_neg hfirst, hlast, Nat.sub_self, Nat.zero_mod]
  · have hbefore : rowAfter rows n = 1 + (n - rows) % (rows - 1) := if_neg (by omega)
    have hmod := Nat.mod_lt (n - rows) (show 0 < rows - 1 by omega)
    rw [rowAfter, if_neg hfirst, hbefore, show n + 1 - rows = n - rows + 1 by omega,
      next_mod (show 0 < rows - 1 by omega)]
    by_cases hroom : 1 + (n - rows) % (rows - 1) + 1 < rows
    · rw [if_pos hroom, if_pos (by omega)]
      omega
    · rw [if_neg hroom, if_neg (by omega)]

variable {g : Geometry} {foreground background : ℕ} {t : Terminal} {text : List UInt8}

theorem print_printable {rows columns : ℕ} {p : Printed} (hch : Printable p.ch)
    (hspace : ¬ (t.x = 0 ∧ p.ch = 0x20)) (hroom : t.x + 1 < columns) :
    t.print rows columns p = t.put p := by
  have hlf : p.ch ≠ 0x0a := by
    intro heq
    exact absurd hch.1 (by rw [heq]; decide)
  have hcr : p.ch ≠ 0x0d := by
    intro heq
    exact absurd hch.1 (by rw [heq]; decide)
  have hskip : ¬ (p.ch.toNat < 32 ∨ 127 < p.ch.toNat ∨ (t.x = 0 ∧ p.ch = 0x20)) := by
    rintro (hlow | hhigh | hblank)
    · exact absurd hch.1 (Nat.not_le.mpr hlow)
    · exact absurd hch.2 (Nat.not_le.mpr hhigh)
    · exact hspace hblank
  rw [Terminal.print, Terminal.type, if_neg hlf, if_neg hcr, if_neg hskip, if_pos hroom]

theorem printAll_rest (hprintable : ∀ ch ∈ text, Printable ch)
    (hspace : t.x = 0 → text.head? ≠ some 0x20) (hroom : t.x + text.length < textColumns g) :
    let t' := t.printAll g foreground background text
    t'.x = t.x + text.length ∧ t'.y = t.y ∧ t'.cleared = t.cleared ∧
      ∀ row column, t'.cells row column =
        if row = t.y ∧ t.x ≤ column ∧ column < t.x + text.length then
          text[column - t.x]?.map (⟨·, foreground, background⟩)
        else t.cells row column := by
  induction text generalizing t with
  | nil =>
      refine ⟨rfl, rfl, rfl, fun row column => ?_⟩
      rw [if_neg]
      · rfl
      · rintro ⟨-, hle, hlt⟩
        exact absurd hlt (Nat.not_lt.mpr hle)
  | cons ch text ih =>
      rw [List.length_cons] at hroom
      have hput : t.print (textRows g) (textColumns g) ⟨ch, foreground, background⟩ =
          t.put ⟨ch, foreground, background⟩ := by
        apply print_printable
        · exact hprintable ch List.mem_cons_self
        · rintro ⟨hzero, hblank⟩
          exact hspace hzero (congrArg some hblank)
        · omega
      have hx : (t.put ⟨ch, foreground, background⟩).x = t.x + 1 := rfl
      obtain ⟨hx', hy', hcleared', hcells'⟩ := @ih (t.put ⟨ch, foreground, background⟩)
        (fun c hc => hprintable c (List.mem_cons_of_mem _ hc))
        (fun hzero => absurd hzero (Nat.succ_ne_zero t.x)) (by rw [hx]; omega)
      rw [Terminal.printAll, List.foldl_cons, hput]
      change _ = t.x + (text.length + 1) ∧ _
      refine ⟨hx'.trans (by rw [hx]; omega), hy', hcleared', fun row column => ?_⟩
      refine (hcells' row column).trans ?_
      rw [List.length_cons, Terminal.put]
      dsimp only
      by_cases hrow : row = t.y
      · by_cases hcolumn : column = t.x
        · subst hcolumn
          rw [if_neg (by omega), if_pos ⟨hrow, rfl⟩, if_pos (by omega), Nat.sub_self]
          rfl
        · rw [if_neg (c := row = t.y ∧ column = t.x) fun hboth => hcolumn hboth.2]
          by_cases hin : t.x + 1 ≤ column ∧ column < t.x + 1 + text.length
          · rw [if_pos ⟨hrow, hin⟩, if_pos (by omega),
              show column - t.x = column - (t.x + 1) + 1 by omega, List.getElem?_cons_succ]
          · rw [if_neg fun hall => hin hall.2, if_neg (by omega)]
      · rw [if_neg fun hall => hrow hall.1, if_neg fun hall => hrow hall.1,
          if_neg fun hall => hrow hall.1]

theorem print_newline {rows columns : ℕ} (hrows : 2 ≤ rows) :
    t.print rows columns ⟨0x0a, foreground, background⟩ =
      if t.y + 1 < rows then { t with x := 0, y := t.y + 1 }
      else { Terminal.erased with y := 1 } := by
  have htype : ∀ (t : Terminal) again,
      t.type rows columns ⟨0x0a, foreground, background⟩ again = t.feed rows again :=
    fun t again => if_pos rfl
  rw [Terminal.print, htype, Terminal.feed, htype, Terminal.feed]
  split
  · rfl
  · exact if_pos (show 0 + 1 < rows by omega)

structure OnPage (g : Geometry) (foreground background : ℕ) (lines : List (List UInt8))
    (t : Terminal) : Prop where
  x_eq : t.x = 0
  y_eq : t.y = rowAfter (textRows g) lines.length
  cells_eq : ∀ row column, t.cells row column =
    (shownAt (textRows g) lines row column).map (⟨·, foreground, background⟩)

theorem shownAt_concat {rows : ℕ} (hrows : 2 ≤ rows) {lines : List (List UInt8)}
    (hroom : rowAfter rows lines.length + 1 < rows) (row column : ℕ) :
    shownAt rows (lines ++ [text]) row column =
      if row = rowAfter rows lines.length then text[column]?
      else shownAt rows lines row column := by
  have hle := rowAfter_le (n := lines.length) hrows
  have hnext : rowAfter rows (lines.length + 1) = rowAfter rows lines.length + 1 := by
    rw [rowAfter_succ hrows, if_pos hroom]
  have hpage : lines.length < rows → rowAfter rows lines.length = lines.length :=
    fun hfirst => if_pos hfirst
  have hlater : ¬ lines.length < rows → 0 < rowAfter rows lines.length := by
    intro hfirst
    rw [rowAfter, if_neg hfirst]
    omega
  rw [shownAt, shownAt, List.length_append, List.length_singleton, hnext,
    show lines.length + 1 - (rowAfter rows lines.length + 1) + row =
      lines.length - rowAfter rows lines.length + row by omega]
  by_cases hrow : row = rowAfter rows lines.length
  · rw [if_pos hrow, if_pos (by omega), show lines.length - rowAfter rows lines.length + row =
      lines.length by omega, List.getElem?_concat_length]
    rfl
  · rw [if_neg hrow]
    by_cases habove : row < rowAfter rows lines.length
    · rw [List.getElem?_append_left (by omega)]
      by_cases hshown : lines.length < rows ∨ 0 < row
      · rw [if_pos (by omega), if_pos ⟨habove, hshown⟩]
      · rw [if_neg (by omega), if_neg fun hboth => hshown hboth.2]
    · rw [if_neg (by omega), if_neg fun hboth => habove hboth.1]

theorem OnPage.concat {lines : List (List UInt8)} (hrows : 2 ≤ textRows g)
    (h : OnPage g foreground background lines t) (hplain : PlainLine (textColumns g) text) :
    OnPage g foreground background (lines ++ [text])
      (t.printAll g foreground background (text ++ [0x0a])) := by
  obtain ⟨hx, hy, -, hcells⟩ := @printAll_rest g foreground background t text
    hplain.printable (fun _ => hplain.unindented) (by
      rw [h.x_eq, Nat.zero_add]
      exact hplain.short)
  rw [Terminal.printAll, List.foldl_append]
  change OnPage g foreground background (lines ++ [text])
    ((t.printAll g foreground background text).print (textRows g) (textColumns g)
      ⟨0x0a, foreground, background⟩)
  generalize t.printAll g foreground background text = typed at hx hy hcells ⊢
  have hlength : (lines ++ [text]).length = lines.length + 1 := by
    rw [List.length_append, List.length_singleton]
  rw [print_newline hrows]
  rw [h.y_eq] at hy
  by_cases hroom : rowAfter (textRows g) lines.length + 1 < textRows g
  · rw [if_pos (by rw [hy]; exact hroom)]
    refine ⟨rfl, ?_, fun row column => ?_⟩
    · rw [hlength, rowAfter_succ hrows, if_pos hroom, hy]
    · refine (hcells row column).trans ?_
      rw [h.x_eq, h.y_eq, h.cells_eq, shownAt_concat hrows hroom]
      by_cases hrow : row = rowAfter (textRows g) lines.length
      · rw [if_pos hrow]
        by_cases hcolumn : column < text.length
        · rw [if_pos ⟨hrow, Nat.zero_le _, by omega⟩, Nat.sub_zero]
        · have hbelow : shownAt (textRows g) lines row column = none :=
            if_neg fun hboth => absurd hboth.1 (by omega)
          rw [if_neg fun hall => hcolumn (by omega), hbelow, List.getElem?_eq_none (by omega)]
      · rw [if_neg fun hall => hrow hall.1, if_neg hrow]
  · rw [if_neg (by rw [hy]; exact hroom)]
    have hle := rowAfter_le (n := lines.length) hrows
    have hnext : rowAfter (textRows g) (lines.length + 1) = 1 := by
      rw [rowAfter_succ hrows, if_neg hroom]
    refine ⟨rfl, ?_, fun row column => ?_⟩
    · rw [hlength, hnext]
    · rw [shownAt, hlength, hnext, if_neg (by omega)]
      rfl

theorem printAll_logText {lines : List (List UInt8)} (hrows : 2 ≤ textRows g)
    (hplain : ∀ text ∈ lines, PlainLine (textColumns g) text) :
    OnPage g foreground background lines
      (Terminal.fresh.printAll g foreground background (logText lines)) := by
  induction lines using List.reverseRecOn with
  | nil =>
      refine ⟨rfl, ?_, fun row column => ?_⟩
      · rw [rowAfter, if_pos (show ([] : List (List UInt8)).length < textRows g from by
          rw [List.length_nil]
          omega)]
        rfl
      · have hnothing : shownAt (textRows g) [] row column = none := by
          rw [shownAt]
          split <;> rfl
        rw [hnothing]
        rfl
  | append_singleton lines text ih =>
      have hbefore := ih fun l hl => hplain l (List.mem_append_left _ hl)
      have hlast := hplain text (List.mem_append_right _ (List.mem_singleton_self text))
      have hprinted := hbefore.concat hrows hlast
      rw [Terminal.printAll, Terminal.printAll, ← List.foldl_append] at hprinted
      rw [logText, List.flatMap_append, List.flatMap_singleton]
      exact hprinted

theorem ordinary_writes {g : Geometry} {foreground background : ℕ} {t : Terminal}
    {buffers : List (List (UInt8 × Bool))} :
    (buffers.map (Write.mk false)).foldl (fun t w => t.write g foreground background w) t =
      t.printAll g foreground background (buffers.flatten.map Prod.fst) := by
  induction buffers generalizing t with
  | nil => rfl
  | cons buffer buffers ih =>
      rw [List.map_cons, List.foldl_cons, ih, List.flatten_cons, List.map_append, Terminal.printAll,
        Terminal.printAll, List.foldl_append]
      rfl

end MuTegra.Screen.Pages
