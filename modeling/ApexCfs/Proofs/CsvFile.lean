import ApexCfs.Proofs.Summary

/-! The file that `metrics_write_csv` leaves. It can be read back: integers and names
exactly, the other columns to the sixth decimal. -/

namespace ApexCfs

open Idealised Decimal Csv

structure CsvEntry where
  tick : ℕ
  logic : List Char
  nTasks : ℤ
  jainIndex : Double
  maxErrorPct : ℚ
  avgErrorPct : ℚ
  opsSaved : ℕ
  apafState : List Char
deriving DecidableEq

def headerFields : List (List Char) :=
  ["tick".toList, "logic".toList, "n_tasks".toList, "jain_index".toList, "max_error_pct".toList,
    "avg_error_pct".toList, "ops_saved".toList, "apaf_state".toList]

def readDouble (cs : List Char) : Option Double :=
  if cs = "nan".toList ∨ cs = "-nan".toList then some .nan
  else if cs = "inf".toList then some .inf
  else (readFixed 6 cs).map .fin

def readEntry : List (List Char) → Option CsvEntry
  | [tick, logic, nTasks, jain, maxError, avgError, ops, state] => do
    return {
      tick := ← readUnsigned tick
      logic := logic
      nTasks := ← readSigned nTasks
      jainIndex := ← readDouble jain
      maxErrorPct := ← readFixed 6 maxError
      avgErrorPct := ← readFixed 6 avgError
      opsSaved := ← readUnsigned ops
      apafState := state }
  | _ => none

/-- The header must be there, and every row must be well formed. -/
def readCsv (cs : List Char) : Option (List CsvEntry) :=
  match readRows cs with
  | header :: rows => if header = headerFields then rows.mapM readEntry else none
  | [] => none

def roundedDouble : Double → Double
  | .fin q => .fin (rounded 6 q)
  | x => x

def Metrics.columns (nTasks : ℤ) (e : Metrics) : CsvEntry :=
  { tick := e.tick.toNat
    logic := (metricsGetLogicName e.logicUsed).toList
    nTasks := nTasks
    jainIndex := roundedDouble e.jainIndex
    maxErrorPct := rounded 6 e.maxErrorPct
    avgErrorPct := rounded 6 e.avgErrorPct
    opsSaved := e.opsSaved.toNat
    apafState := (metricsGetStateName e.logicUsed e.apafState).toList }

theorem header_row : METRICS_CSV_HEADER.toList = row headerFields := by decide

theorem readDouble_doubleText (nanSign : Bool) (x : Double) :
    readDouble (doubleText nanSign x) = some (roundedDouble x) := by
  cases x with
  | nan => cases nanSign <;> rfl
  | inf => rfl
  | fin q =>
    have hnumeral : ∀ word : List Char, 'n' ∈ word → fixed 6 q ≠ word := by
      rintro word hn rfl
      rcases isNumeral_fixed 6 q 'n' hn with h | h | h <;> revert h <;> decide
    have hnan : ¬ (fixed 6 q = "nan".toList ∨ fixed 6 q = "-nan".toList) := by
      rintro (h | h)
      · exact hnumeral _ (by decide) h
      · exact hnumeral _ (by decide) h
    rw [doubleText, readDouble, if_neg hnan, if_neg (hnumeral _ (by decide)),
      readFixed_fixed (by decide)]
    rfl

def Metrics.fields (nanSign : Bool) (nTasks : ℤ) (e : Metrics) : List (List Char) :=
  [unsigned e.tick.toNat, (metricsGetLogicName e.logicUsed).toList, signed nTasks,
    doubleText nanSign e.jainIndex, fixed 6 e.maxErrorPct, fixed 6 e.avgErrorPct,
    unsigned e.opsSaved.toNat, (metricsGetStateName e.logicUsed e.apafState).toList]

theorem readEntry_fields (nanSign : Bool) (nTasks : ℤ) (e : Metrics) :
    readEntry (e.fields nanSign nTasks) = some (e.columns nTasks) := by
  have hd : 0 < 6 := by decide
  simp [Metrics.fields, readEntry, readUnsigned_unsigned, readSigned_signed, readDouble_doubleText,
    readFixed_fixed hd, Metrics.columns]

theorem plain_of_numeral {cs : List Char} (h : ∀ c ∈ cs, IsNumeral c) : Plain cs := by
  refine ⟨fun hmem => ?_, fun hmem => ?_⟩ <;>
  · rcases h _ hmem with h | h | h <;> revert h <;> decide

theorem plain_fields (nanSign : Bool) (nTasks : ℤ) (e : Metrics) :
    ∀ f ∈ e.fields nanSign nTasks, Plain f := by
  have hlogic : Plain (metricsGetLogicName e.logicUsed).toList := by
    unfold metricsGetLogicName
    split_ifs <;> exact ⟨by decide, by decide⟩
  have hstate : Plain (metricsGetStateName e.logicUsed e.apafState).toList := by
    unfold metricsGetStateName
    split_ifs <;> exact ⟨by decide, by decide⟩
  have hjain : Plain (doubleText nanSign e.jainIndex) := by
    rcases e.jainIndex with _ | _ | q
    · cases nanSign <;> exact ⟨by decide, by decide⟩
    · cases nanSign <;> exact ⟨by decide, by decide⟩
    · exact plain_of_numeral (isNumeral_fixed 6 q)
  intro f hf
  simp only [Metrics.fields, List.mem_cons, List.not_mem_nil, or_false] at hf
  rcases hf with rfl | rfl | rfl | rfl | rfl | rfl | rfl | rfl
  · exact plain_of_numeral (isNumeral_unsigned _)
  · exact hlogic
  · exact plain_of_numeral (isNumeral_signed _)
  · exact hjain
  · exact plain_of_numeral (isNumeral_fixed 6 _)
  · exact plain_of_numeral (isNumeral_fixed 6 _)
  · exact plain_of_numeral (isNumeral_unsigned _)
  · exact hstate

theorem mapM_readEntry (nanSign : ℕ → Bool) (nTasks : ℤ) (es : List (Metrics × ℕ)) :
    (es.map fun e => e.1.fields (nanSign e.2) nTasks).mapM readEntry =
      some (es.map fun e => e.1.columns nTasks) := by
  induction es with
  | nil => rfl
  | cons e es ih => simp [List.mapM_cons, readEntry_fields, ih]

theorem plain_header : ∀ f ∈ headerFields, Plain f := by
  intro f hf
  simp only [headerFields, List.mem_cons, List.not_mem_nil, or_false] at hf
  rcases hf with rfl | rfl | rfl | rfl | rfl | rfl | rfl | rfl <;> exact ⟨by decide, by decide⟩

theorem readCsv_write (nanSign : ℕ → Bool) (nTasks : ℤ) (es : List Metrics) :
    readCsv (METRICS_CSV_HEADER.toList ++ es.zipIdx.flatMap fun e =>
      csvRow (nanSign e.2) nTasks e.1) = some (es.map (Metrics.columns nTasks)) := by
  have htext : (METRICS_CSV_HEADER.toList ++ es.zipIdx.flatMap fun e =>
      csvRow (nanSign e.2) nTasks e.1) =
      text (headerFields :: es.zipIdx.map fun e => e.1.fields (nanSign e.2) nTasks) := by
    rw [text, List.flatMap_cons, List.flatMap_map, header_row]
    rfl
  have hne : ∀ r ∈ headerFields :: es.zipIdx.map fun e => e.1.fields (nanSign e.2) nTasks,
      r ≠ [] := by
    intro r hr
    rcases List.mem_cons.mp hr with rfl | hr
    · exact List.cons_ne_nil _ _
    · obtain ⟨e, -, rfl⟩ := List.mem_map.mp hr
      exact List.cons_ne_nil _ _
  have hplain : ∀ r ∈ headerFields :: es.zipIdx.map fun e => e.1.fields (nanSign e.2) nTasks,
      ∀ f ∈ r, Plain f := by
    intro r hr
    rcases List.mem_cons.mp hr with rfl | hr
    · exact plain_header
    · obtain ⟨e, -, rfl⟩ := List.mem_map.mp hr
      exact plain_fields _ nTasks e.1
  have hcolumns : es.zipIdx.map (fun e => e.1.columns nTasks) = es.map (Metrics.columns nTasks) := by
    have h := congrArg (List.map (Metrics.columns nTasks)) (List.zipIdx_map_fst 0 es)
    rwa [List.map_map] at h
  rw [readCsv, htext, readRows_text hne hplain, ← hcolumns]
  exact (if_pos rfl).trans (mapM_readEntry nanSign nTasks es.zipIdx)

/-- Whatever the entries and the signs of the NaNs among them, the file reads back as
their columns: integers and names as they are, the percentages and the index to within
half a millionth. -/
theorem csv_round_trip (nanSign : ℕ → Bool) (buf : List Metrics) (n : ℕ) (nTasks : ℤ) (hn : 0 < n)
    (hlen : n ≤ buf.length) :
    ∃ file, metricsWriteCsv nanSign buf n nTasks = some file ∧
      readCsv file = some ((buf.take n).map (Metrics.columns nTasks)) ∧
      ((buf.take n).map (Metrics.columns nTasks)).length = n ∧
      ∀ e : Metrics, |(e.columns nTasks).maxErrorPct - e.maxErrorPct| ≤ 1 / 2 / 10 ^ 6 ∧
        |(e.columns nTasks).avgErrorPct - e.avgErrorPct| ≤ 1 / 2 / 10 ^ 6 ∧
        ∀ q, e.jainIndex = .fin q →
          ∃ r, (e.columns nTasks).jainIndex = .fin r ∧ |r - q| ≤ 1 / 2 / 10 ^ 6 := by
  have hpos : ¬ (n : ℤ) ≤ 0 := by omega
  refine ⟨_, by rw [metricsWriteCsv, if_neg hpos], ?_, ?_, fun e => ⟨?_, ?_, fun q hq => ?_⟩⟩
  · rw [Int.toNat_natCast]
    exact readCsv_write nanSign nTasks (buf.take n)
  · rw [List.length_map, List.length_take_of_le hlen]
  · exact abs_rounded_sub_le 6 _
  · exact abs_rounded_sub_le 6 _
  · refine ⟨rounded 6 q, ?_, abs_rounded_sub_le 6 q⟩
    change roundedDouble e.jainIndex = _
    rw [hq]
    rfl

/-- A recorded pair of runqueues, in one row. -/
theorem csv_round_trip_three :
    ∃ file, metricsWriteCsv (fun _ => true) [(pairRun threeTasks 1 1).entry] (1 : ℕ) 3 = some file ∧
      readCsv file = some (([(pairRun threeTasks 1 1).entry].take 1).map (Metrics.columns 3)) ∧
      (([(pairRun threeTasks 1 1).entry].take 1).map (Metrics.columns 3)).length = 1 ∧
      ∀ e : Metrics, |(e.columns 3).maxErrorPct - e.maxErrorPct| ≤ 1 / 2 / 10 ^ 6 ∧
        |(e.columns 3).avgErrorPct - e.avgErrorPct| ≤ 1 / 2 / 10 ^ 6 ∧
        ∀ q, e.jainIndex = .fin q →
          ∃ r, (e.columns 3).jainIndex = .fin r ∧ |r - q| ≤ 1 / 2 / 10 ^ 6 :=
  csv_round_trip (fun _ => true) [(pairRun threeTasks 1 1).entry] 1 3 (by decide) (by simp)

theorem logicName_inj {a b : ℤ} (ha : 0 ≤ a ∧ a ≤ 3) (hb : 0 ≤ b ∧ b ≤ 3)
    (h : (metricsGetLogicName a).toList = (metricsGetLogicName b).toList) : a = b := by
  rcases (by omega : a = 0 ∨ a = 1 ∨ a = 2 ∨ a = 3) with rfl | rfl | rfl | rfl <;>
    rcases (by omega : b = 0 ∨ b = 1 ∨ b = 2 ∨ b = 3) with rfl | rfl | rfl | rfl <;>
      first | rfl | exact absurd h (by decide)

theorem stateName_inj {a b : ℤ} (ha : 0 ≤ a ∧ a ≤ 2) (hb : 0 ≤ b ∧ b ≤ 2)
    (h : (metricsGetStateName 3 a).toList = (metricsGetStateName 3 b).toList) : a = b := by
  rcases (by omega : a = 0 ∨ a = 1 ∨ a = 2) with rfl | rfl | rfl <;>
    rcases (by omega : b = 0 ∨ b = 1 ∨ b = 2) with rfl | rfl | rfl <;>
      first | rfl | exact absurd h (by decide)

theorem close_of_rounded {p q : ℚ} (h : rounded 6 p = rounded 6 q) : |p - q| ≤ 1 / 10 ^ 6 := by
  have hp := abs_rounded_sub_le 6 p
  have hq := abs_rounded_sub_le 6 q
  rw [abs_le] at hp hq ⊢
  rw [h] at hp
  refine ⟨?_, ?_⟩ <;> linarith [hp.1, hp.2, hq.1, hq.2]

/-- Equal files come from as many entries of as many tasks, which agree at every tick
in the tick, the logic and its state, the operations, and the percentages up to a
millionth. -/
theorem csv_determines (nanSign nanSign' : ℕ → Bool) (buf buf' : List Metrics) (n n' : ℕ)
    (nTasks nTasks' : ℤ) (hn : 0 < n) (hlen : n ≤ buf.length) (hlen' : n' ≤ buf'.length) (hn' : 0 < n')
    (hfile : metricsWriteCsv nanSign buf n nTasks = metricsWriteCsv nanSign' buf' n' nTasks') :
    n = n' ∧ nTasks = nTasks' ∧ ∀ (i : ℕ) (e e' : Metrics), i < n → buf[i]? = some e →
      buf'[i]? = some e' → e.tick = e'.tick ∧ e.opsSaved = e'.opsSaved ∧
        |e.maxErrorPct - e'.maxErrorPct| ≤ 1 / 10 ^ 6 ∧
        |e.avgErrorPct - e'.avgErrorPct| ≤ 1 / 10 ^ 6 ∧
        (0 ≤ e.logicUsed ∧ e.logicUsed ≤ 3 → 0 ≤ e'.logicUsed ∧ e'.logicUsed ≤ 3 →
          e.logicUsed = e'.logicUsed) ∧
        (e.logicUsed = 3 → e'.logicUsed = 3 → 0 ≤ e.apafState ∧ e.apafState ≤ 2 →
          0 ≤ e'.apafState ∧ e'.apafState ≤ 2 → e.apafState = e'.apafState) := by
  have hwrite : ∀ (sign : ℕ → Bool) (b : List Metrics) (k : ℕ) (t : ℤ), 0 < k →
      metricsWriteCsv sign b k t = some (METRICS_CSV_HEADER.toList ++
        (b.take k).zipIdx.flatMap fun e => csvRow (sign e.2) t e.1) := by
    intro sign b k t hk
    rw [metricsWriteCsv, if_neg (by omega), Int.toNat_natCast]
  rw [hwrite _ _ _ _ hn, hwrite _ _ _ _ hn', Option.some.injEq] at hfile
  have hread := congrArg readCsv hfile
  rw [readCsv_write, readCsv_write, Option.some.injEq] at hread
  have hlength := congrArg List.length hread
  rw [List.length_map, List.length_map, List.length_take_of_le hlen,
    List.length_take_of_le hlen'] at hlength
  subst hlength
  have hget : ∀ (i : ℕ) (e e' : Metrics), i < n → buf[i]? = some e → buf'[i]? = some e' →
      e.columns nTasks = e'.columns nTasks' := by
    intro i e e' hi he he'
    have h := congrArg (fun l : List CsvEntry => l[i]?) hread
    simp only [List.getElem?_map, List.getElem?_take_of_lt hi, he, he', Option.map_some,
      Option.some.injEq] at h
    exact h
  refine ⟨rfl, ?_, fun i e e' hi he he' => ?_⟩
  · have h0 := hget 0 _ _ hn (List.getElem?_eq_getElem (hn.trans_le hlen))
      (List.getElem?_eq_getElem (hn.trans_le hlen'))
    exact congrArg CsvEntry.nTasks h0
  · have hcols := hget i e e' hi he he'
    have hlogic := congrArg CsvEntry.logic hcols
    have hstate := congrArg CsvEntry.apafState hcols
    refine ⟨UInt64.toNat_inj.mp (congrArg CsvEntry.tick hcols),
      UInt64.toNat_inj.mp (congrArg CsvEntry.opsSaved hcols),
      close_of_rounded (congrArg CsvEntry.maxErrorPct hcols),
      close_of_rounded (congrArg CsvEntry.avgErrorPct hcols),
      fun ha hb => logicName_inj ha hb hlogic, fun ha hb hsa hsb => ?_⟩
    change (metricsGetStateName e.logicUsed e.apafState).toList =
      (metricsGetStateName e'.logicUsed e'.apafState).toList at hstate
    rw [ha, hb] at hstate
    exact stateName_inj hsa hsb hstate

/-- A buffer and a longer one with the same first entry. -/
theorem csv_determines_first :
    1 = 1 ∧ (3 : ℤ) = 3 ∧ ∀ (i : ℕ) (e e' : Metrics), i < 1 → [Metrics.zeroed][i]? = some e →
      [Metrics.zeroed, (pairRun threeTasks 3 4).entry][i]? = some e' →
      e.tick = e'.tick ∧ e.opsSaved = e'.opsSaved ∧
        |e.maxErrorPct - e'.maxErrorPct| ≤ 1 / 10 ^ 6 ∧
        |e.avgErrorPct - e'.avgErrorPct| ≤ 1 / 10 ^ 6 ∧
        (0 ≤ e.logicUsed ∧ e.logicUsed ≤ 3 → 0 ≤ e'.logicUsed ∧ e'.logicUsed ≤ 3 →
          e.logicUsed = e'.logicUsed) ∧
        (e.logicUsed = 3 → e'.logicUsed = 3 → 0 ≤ e.apafState ∧ e.apafState ≤ 2 →
          0 ≤ e'.apafState ∧ e'.apafState ≤ 2 → e.apafState = e'.apafState) :=
  csv_determines (fun _ => true) (fun _ => false) [Metrics.zeroed]
    [Metrics.zeroed, (pairRun threeTasks 3 4).entry] 1 1 3 3 (by decide) (by decide) (by simp)
    (by decide) rfl

end ApexCfs
