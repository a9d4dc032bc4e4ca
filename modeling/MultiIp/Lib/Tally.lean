import Mathlib.Data.List.Count
import Mathlib.Data.List.Infix
import Mathlib.Data.List.Nodup
import Mathlib.Logic.Function.Basic

/-!
# Counting the entries of a table

A table gives each index at most one entry. How often an entry occurs changes
with one index by what comes and what goes.
-/

namespace MultiIp.Lib

variable {ι α : Type*} [DecidableEq ι] [DecidableEq α]

theorem filterMap_update_count {l : List ι} (hnd : l.Nodup) {i : ι}
    (hi : i ∈ l) (g : ι → Option α) (v : Option α) (x : α) :
    (l.filterMap (Function.update g i v)).count x + (g i).toList.count x =
      (l.filterMap g).count x + v.toList.count x := by
  obtain ⟨s, t, rfl⟩ := List.append_of_mem hi
  obtain ⟨hs, ht⟩ := List.mem_append.not.mp (List.nodup_middle.mp hnd |> List.nodup_cons.mp |>.1) |> not_or.mp
  have hkeep : ∀ l : List ι, i ∉ l → l.filterMap (Function.update g i v) = l.filterMap g := by
    intro l hl
    refine List.filterMap_congr (fun j hj => ?_)
    have hne : j ≠ i := by
      rintro rfl
      exact hl hj
    exact Function.update_of_ne hne _ _
  have hcons : ∀ f : ι → Option α, (s ++ i :: t).filterMap f = s.filterMap f ++ (f i).toList ++ t.filterMap f := by
    intro f
    rw [List.filterMap_append, List.filterMap_cons, List.append_assoc]
    cases f i <;> rfl
  rw [hcons, hcons, hkeep s hs, hkeep t ht, Function.update_self]
  simp only [List.count_append]
  omega

theorem filterMap_erase_count {l : List ι} {i : ι} (hi : i ∈ l) (g : ι → Option α) (x : α) :
    ((l.erase i).filterMap g).count x + (g i).toList.count x = (l.filterMap g).count x := by
  have hperm := (List.perm_cons_erase hi).filterMap g
  rw [hperm.count_eq, List.filterMap_cons]
  cases g i with
  | none => rfl
  | some y => rw [List.count_cons, Option.toList_some, List.count_singleton]

end MultiIp.Lib
