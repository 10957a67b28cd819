import Mathlib.Tactic

/-! Comma-separated text: rows of fields, each row ended by a line break. If no
field holds a separator, splitting at the separators takes the fields back. -/

namespace Csv

/-- A field that holds no separator. -/
def Plain (field : List Char) : Prop := ',' ∉ field ∧ '\n' ∉ field

def row (fields : List (List Char)) : List Char := [','].intercalate fields ++ ['\n']

def text (rows : List (List (List Char))) : List Char := rows.flatMap row

def readRows (cs : List Char) : List (List (List Char)) :=
  (cs.splitOn '\n').dropLast.map fun line => line.splitOn ','

theorem not_mem_intercalate {fields : List (List Char)} (h : ∀ f ∈ fields, Plain f) :
    '\n' ∉ [','].intercalate fields := by
  induction fields with
  | nil => simp
  | cons f fields ih =>
    have hf := (h f (List.mem_cons_self ..)).2
    have ih' := ih fun g hg => h g (List.mem_cons_of_mem _ hg)
    rcases fields with _ | ⟨g, fields⟩
    · rw [List.intercalate_singleton]
      exact hf
    · rw [List.intercalate_cons_cons]
      intro hmem
      rcases List.mem_append.mp hmem with hmem | hmem
      · rcases List.mem_append.mp hmem with hmem | hmem
        · exact hf hmem
        · simp at hmem
      · exact ih' hmem

theorem splitOn_text {rows : List (List (List Char))} (h : ∀ r ∈ rows, ∀ f ∈ r, Plain f) :
    (text rows).splitOn '\n' = rows.map (fun r => [','].intercalate r) ++ [[]] := by
  induction rows with
  | nil => rfl
  | cons r rows ih =>
    have ih' := ih fun s hs => h s (List.mem_cons_of_mem _ hs)
    have hr := not_mem_intercalate (h r (List.mem_cons_self ..))
    have htext : text (r :: rows) = [','].intercalate r ++ '\n' :: text rows := by
      rw [text, List.flatMap_cons, row, List.append_assoc]
      rfl
    rw [htext, List.splitOn_append_cons_self_of_not_mem hr, ih', List.map_cons, List.cons_append]

theorem readRows_text {rows : List (List (List Char))} (hne : ∀ r ∈ rows, r ≠ [])
    (h : ∀ r ∈ rows, ∀ f ∈ r, Plain f) : readRows (text rows) = rows := by
  rw [readRows, splitOn_text h, List.dropLast_concat, List.map_map]
  refine (List.map_congr_left fun r hr => ?_).trans (List.map_id rows)
  exact List.splitOn_intercalate ',' (fun f hf => (h r hr f hf).1) (hne r hr)

end Csv
