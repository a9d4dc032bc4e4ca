import MultiIp.Lib.Text

/-!
# Answers on the serial line

The form in which the board answers a command and the panel reads it: a block
of lines between `#BEGIN` and `#END`, or one line `#ERR`.
-/

namespace MultiIp.Wire

open Lib

def isPrintable (c : Char) : Bool := 32 ≤ c.toNat && c.toNat < 127

inductive Answer
  | block (name : Text) (data : List Text) (status : Text)
  | err (reason : Text)
  deriving DecidableEq

def eol : Text := "\r\n".toList

def Answer.lines : Answer → List Text
  | .block name data status =>
    ("#BEGIN ".toList ++ name) :: data ++ ["#END ".toList ++ name ++ ' ' :: status]
  | .err reason => ["#ERR ".toList ++ reason]

def Answer.print (a : Answer) : Text := a.lines.flatMap (· ++ eol)

def Answer.name : Answer → Text
  | .block name _ _ => name
  | .err _ => []

/-- Printable characters without a blank. -/
def IsWord (w : Text) : Prop := w ≠ [] ∧ ∀ c ∈ w, isPrintable c = true ∧ c ≠ ' '

/-- How the lines start that the panel gives a meaning of their own. -/
def marks : List String := ["#EVT", "#BEGIN", "#END", "#ERR"]

/-- A line between `#BEGIN` and `#END` that is not taken for another kind of line. -/
structure IsData (l : Text) : Prop where
  ne_nil : l ≠ []
  printable : ∀ c ∈ l, isPrintable c = true
  no_mark : ∀ q ∈ marks, ¬ q.toList <+: l

def Answer.Wf : Answer → Prop
  | .block name data status => IsWord name ∧ (∀ l ∈ data, IsData l) ∧ IsWord status
  | .err reason => IsWord reason

/-- Nor with something longer that starts with a mark. -/
theorem IsData.not_prefix {l : Text} (h : IsData l) (q : String) (hq : q ∈ marks) {p : Text} (hp : q.toList <+: p) :
    ¬ p <+: l := fun hl => h.no_mark q hq (hp.trans hl)

theorem isPrintable_iff {c : Char} : isPrintable c = true ↔ 32 ≤ c.toNat ∧ c.toNat < 127 := by
  simp [isPrintable]

theorem not_mem_of_printable {l : Text} (h : ∀ c ∈ l, isPrintable c = true) {c : Char} (hc : isPrintable c = false) :
    c ∉ l := by
  intro hmem
  rw [h c hmem] at hc
  cases hc

theorem isPrintable_of_isDigit {c : Char} (h : c.isDigit = true) : isPrintable c = true := by
  have := isDigit_range h
  rw [isPrintable_iff]
  omega

theorem Answer.Wf.printable {a : Answer} (h : a.Wf) : ∀ l ∈ a.lines, ∀ c ∈ l, isPrintable c = true := by
  have hlit : ∀ s : String, s.toList.all isPrintable = true → ∀ c ∈ s.toList, isPrintable c = true := by
    intro s hs c hc
    exact List.all_eq_true.mp hs c hc
  cases a with
  | block name data status =>
    obtain ⟨hname, hdata, hstatus⟩ := h
    intro l hl c hc
    simp only [Answer.lines, List.cons_append, List.mem_cons, List.mem_append, List.not_mem_nil, or_false] at hl
    rcases hl with rfl | hl | rfl
    · rcases List.mem_append.mp hc with hc | hc
      · exact hlit "#BEGIN " (by decide) c hc
      · exact (hname.2 c hc).1
    · exact (hdata l hl).printable c hc
    · simp only [List.mem_append, List.mem_cons] at hc
      rcases hc with (hc | hc) | rfl | hc
      · exact hlit "#END " (by decide) c hc
      · exact (hname.2 c hc).1
      · decide
      · exact (hstatus.2 c hc).1
  | err reason =>
    intro l hl c hc
    simp only [Answer.lines, List.mem_singleton] at hl
    subst hl
    rcases List.mem_append.mp hc with hc | hc
    · exact hlit "#ERR " (by decide) c hc
    · exact (h.2 c hc).1

theorem Answer.Wf.no_lf {a : Answer} (h : a.Wf) : ∀ l ∈ a.lines, '\n' ∉ l :=
  fun l hl => not_mem_of_printable (h.printable l hl) (by decide)

theorem Answer.print_eq (a : Answer) : a.print = (a.lines.map (· ++ ['\r'])).flatMap (· ++ ['\n']) := by
  rw [Answer.print, List.flatMap_map]
  refine List.flatMap_congr fun l _ => ?_
  rw [List.append_assoc]
  rfl

theorem Answer.Wf.lines_lf {a : Answer} (h : a.Wf) : ∀ l ∈ a.lines.map (· ++ ['\r']), '\n' ∉ l := by
  intro l hl
  obtain ⟨m, hm, rfl⟩ := List.mem_map.mp hl
  simpa using h.no_lf m hm

end MultiIp.Wire
