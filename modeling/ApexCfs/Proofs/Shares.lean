import ApexCfs.Lib.ListLoop
import ApexCfs.Proofs.JainIndex

/-! The CPU shares. The stored ones are a split of one over the runnable tasks; whether
every entry of the array is stored depends on how many tasks there are. -/

namespace ApexCfs

open ListLoop

theorem shareSums_eq (tasks : List CfsTask) :
    shareSums tasks =
      { total := UInt64.ofNat (runnableTimes tasks).sum
        nrRunning := (runnableTimes tasks).length } := by
  induction tasks using List.reverseRecOn with
  | nil => rfl
  | append_singleton tasks t ih =>
    have hloop : shareSums (tasks ++ [t]) = (shareSums tasks).step t := by
      rw [shareSums, List.foldl_append]
      rfl
    rw [hloop, ih, ShareSums.step, runnableTimes, runnableTimes, List.filter_append]
    by_cases hr : t.runnable = 1
    · simp [hr, UInt64.ofNat_add]
    · simp [hr]

def timeShare (times : List ℕ) (x : ℕ) : ℚ :=
  if 0 < times.sum then x / times.sum else 1 / times.length

theorem mem_runnableTimes {tasks : List CfsTask} {t : CfsTask} (ht : t ∈ tasks)
    (hr : t.runnable = 1) : t.execRuntime.toNat ∈ runnableTimes tasks :=
  List.mem_map_of_mem (List.mem_filter.2 ⟨ht, by simpa using hr⟩)

theorem share_eq {tasks : List CfsTask} (hfit : (runnableTimes tasks).sum < 2 ^ 64) {t : CfsTask}
    (ht : t ∈ tasks) : (shareSums tasks).share t =
      if t.runnable = 1 then timeShare (runnableTimes tasks) t.execRuntime.toNat else 0 := by
  rw [shareSums_eq, ShareSums.share, timeShare]
  by_cases hr : t.runnable = 1
  · have hlen : 0 < (runnableTimes tasks).length :=
      List.length_pos_of_mem (mem_runnableTimes ht hr)
    have hpos : UInt64.ofNat (runnableTimes tasks).sum > 0 ↔ 0 < (runnableTimes tasks).sum := by
      rw [gt_iff_lt, UInt64.lt_iff_toNat_lt, Word.toNat_ofNat_of_lt hfit, UInt64.toNat_zero]
    simp only [hr, if_true, hpos, gt_iff_lt, hlen, Word.toNat_ofNat_of_lt hfit]
  · simp only [hr, if_false]

theorem timeShare_range {times : List ℕ} {x : ℕ} (hx : x ∈ times) :
    0 ≤ timeShare times x ∧ timeShare times x ≤ 1 := by
  have hle : x ≤ times.sum := List.le_sum_of_mem hx
  have hlen : 1 ≤ times.length := List.length_pos_of_mem hx
  unfold timeShare
  split_ifs with h
  · have hsum : (0 : ℚ) < times.sum := by exact_mod_cast h
    exact ⟨by positivity, (div_le_one hsum).2 (by exact_mod_cast hle)⟩
  · have hone : (1 : ℚ) ≤ times.length := by exact_mod_cast hlen
    exact ⟨by positivity, (div_le_one (by linarith)).2 hone⟩

theorem sum_timeShare {times : List ℕ} (h : times ≠ []) : (times.map (timeShare times)).sum = 1 := by
  rcases Nat.eq_zero_or_pos times.sum with h0 | hpos
  · have hlen : (times.length : ℚ) ≠ 0 := by
      exact_mod_cast (List.length_pos_of_ne_nil h).ne'
    have hconst : times.map (timeShare times) = times.map fun _ => 1 / (times.length : ℚ) := by
      refine List.map_congr_left fun x _ => ?_
      rw [timeShare, if_neg (by omega)]
    rw [hconst, List.map_const', List.sum_replicate, nsmul_eq_mul, mul_one_div, div_self hlen]
  · have hsum : ((times.sum : ℕ) : ℚ) ≠ 0 := by exact_mod_cast hpos.ne'
    have hquot : times.map (timeShare times) =
        times.map fun x : ℕ => (x : ℚ) * ((times.sum : ℕ) : ℚ)⁻¹ := by
      refine List.map_congr_left fun x _ => ?_
      rw [timeShare, if_pos hpos, div_eq_mul_inv]
    rw [hquot, List.sum_map_mul_right, ← Nat.cast_list_sum, mul_inv_cancel₀ hsum]

theorem sum_map_runnable (g : ℕ → ℚ) (tasks : List CfsTask) :
    (tasks.map fun t => if t.runnable = 1 then g t.execRuntime.toNat else 0).sum =
      ((runnableTimes tasks).map g).sum := by
  unfold runnableTimes
  induction tasks with
  | nil => rfl
  | cons t tasks ih =>
    by_cases hr : t.runnable = 1
    · simp [hr, ih]
    · simp [hr, ih]

/-- The first `maxTasks` entries of the array are all stored, and they are the shares. -/
structure SharesFilled (rq : Option CfsRq) (maxTasks : ℤ) : Prop where
  determined : ∀ shares shares' : List ℚ, maxTasks ≤ shares.length → maxTasks ≤ shares'.length →
    (fairnessCpuShares rq shares maxTasks).take maxTasks.toNat =
      (fairnessCpuShares rq shares' maxTasks).take maxTasks.toNat
  idle : ∀ shares : List ℚ, maxTasks ≤ shares.length → ∀ i : ℕ, i < maxTasks →
    (∀ t, (tasksOf rq)[i]? = some t → t.runnable ≠ 1) →
      (fairnessCpuShares rq shares maxTasks)[i]? = some 0
  unit : ∀ shares : List ℚ, maxTasks ≤ shares.length →
    ∀ x ∈ (fairnessCpuShares rq shares maxTasks).take maxTasks.toNat, 0 ≤ x ∧ x ≤ 1
  total : ∀ shares : List ℚ, maxTasks ≤ shares.length →
    (∃ i : ℕ, i < maxTasks ∧ ∃ t, (tasksOf rq)[i]? = some t ∧ t.runnable = 1) →
      ((fairnessCpuShares rq shares maxTasks).take maxTasks.toNat).sum = 1

section Array

variable {rq : Option CfsRq} {maxTasks : ℤ} (hpos : 0 < maxTasks)

include hpos

theorem shares_of_nil {shares : List ℚ} (hlen : maxTasks ≤ shares.length) (h : tasksOf rq = []) :
    fairnessCpuShares rq shares maxTasks =
      List.replicate maxTasks.toNat 0 ++ shares.drop maxTasks.toNat := by
  simp only [fairnessCpuShares, if_neg (not_le.2 hpos), h, List.length_nil, if_true]
  exact foldl_set_range 0 (by omega)

theorem shares_of_ne_nil {shares : List ℚ} (hlen : maxTasks ≤ shares.length)
    (h : tasksOf rq ≠ []) :
    fairnessCpuShares rq shares maxTasks =
      ((tasksOf rq).take maxTasks.toNat).map (shareSums ((tasksOf rq).take maxTasks.toNat)).share ++
        shares.drop (min maxTasks.toNat (tasksOf rq).length) := by
  have hne : ¬(tasksOf rq).length = 0 := mt List.length_eq_zero_iff.1 h
  have hlimit : (tasksOf rq).take (if (tasksOf rq).length < maxTasks.toNat then
      (tasksOf rq).length else maxTasks.toNat) = (tasksOf rq).take maxTasks.toNat := by
    split_ifs with hlt
    · rw [List.take_of_length_le le_rfl, List.take_of_length_le hlt.le]
    · rfl
  simp only [fairnessCpuShares, if_neg (not_le.2 hpos), if_neg hne, hlimit]
  rw [foldl_set_zipIdx _ _ (by rw [List.length_take]; omega), List.length_take]

/-- If the stored entries are the same whatever the array held, only these need looking at. -/
theorem sharesFilled_of_entries {entries : List ℚ}
    (htake : ∀ shares : List ℚ, maxTasks ≤ shares.length →
      (fairnessCpuShares rq shares maxTasks).take maxTasks.toNat = entries)
    (hidle : ∀ i < maxTasks.toNat, (∀ t, (tasksOf rq)[i]? = some t → t.runnable ≠ 1) →
      entries[i]? = some 0)
    (hunit : ∀ x ∈ entries, 0 ≤ x ∧ x ≤ 1)
    (htotal : ∀ i < maxTasks.toNat, ∀ t, (tasksOf rq)[i]? = some t → t.runnable = 1 →
      entries.sum = 1) : SharesFilled rq maxTasks := by
  refine ⟨fun s s' hs hs' => by rw [htake s hs, htake s' hs'], fun s hs i hi hno => ?_,
    fun s hs x hx => ?_, fun s hs hrun => ?_⟩
  · have hlt : i < maxTasks.toNat := by omega
    rw [← hidle i hlt hno, ← htake s hs, List.getElem?_take, if_pos hlt]
  · rw [htake s hs] at hx
    exact hunit x hx
  · obtain ⟨i, hi, t, ht, hr⟩ := hrun
    rw [htake s hs]
    exact htotal i (by omega) t ht hr

theorem sharesFilled_of_nil (h : tasksOf rq = []) : SharesFilled rq maxTasks := by
  have htake : ∀ shares : List ℚ, maxTasks ≤ shares.length →
      (fairnessCpuShares rq shares maxTasks).take maxTasks.toNat =
        List.replicate maxTasks.toNat 0 := fun shares hlen => by
    rw [shares_of_nil hpos hlen h, List.take_left' List.length_replicate]
  refine sharesFilled_of_entries hpos htake (fun i hi _ => ?_) (fun x hx => ?_)
    (fun i _ t ht _ => ?_)
  · rw [List.getElem?_replicate, if_pos hi]
  · rw [List.eq_of_mem_replicate hx]
    norm_num
  · rw [h] at ht
    exact absurd ht (by simp)

theorem shares_of_le {shares : List ℚ} (hlen : maxTasks ≤ shares.length)
    (hle : maxTasks ≤ (tasksOf rq).length)
    (hfit : (runnableTimes ((tasksOf rq).take maxTasks.toNat)).sum < 2 ^ 64) :
    (fairnessCpuShares rq shares maxTasks).take maxTasks.toNat =
      ((tasksOf rq).take maxTasks.toNat).map fun t => if t.runnable = 1 then
        timeShare (runnableTimes ((tasksOf rq).take maxTasks.toNat)) t.execRuntime.toNat else 0 := by
  have hne : tasksOf rq ≠ [] := fun h => by
    rw [h, List.length_nil] at hle
    omega
  have htasks : ((tasksOf rq).take maxTasks.toNat).length = maxTasks.toNat := by
    rw [List.length_take]
    omega
  rw [shares_of_ne_nil hpos hlen hne, List.take_left' (by rw [List.length_map, htasks])]
  exact List.map_congr_left fun t ht => share_eq hfit ht

theorem sharesFilled_of_le (hle : maxTasks ≤ (tasksOf rq).length)
    (hfit : (runnableTimes ((tasksOf rq).take maxTasks.toNat)).sum < 2 ^ 64) :
    SharesFilled rq maxTasks := by
  refine sharesFilled_of_entries hpos (fun shares hlen => shares_of_le hpos hlen hle hfit)
    (fun i hi hidle => ?_) (fun x hx => ?_) (fun i hi t ht hr => ?_)
  · obtain ⟨t, ht⟩ : ∃ t, (tasksOf rq)[i]? = some t :=
      ⟨_, List.getElem?_eq_getElem (by omega : i < (tasksOf rq).length)⟩
    rw [List.getElem?_map, List.getElem?_take, if_pos hi, ht, Option.map_some, if_neg (hidle t ht)]
  · obtain ⟨t, ht, rfl⟩ := List.mem_map.1 hx
    split_ifs with hr
    · exact timeShare_range (mem_runnableTimes ht hr)
    · norm_num
  · have hmem : t ∈ (tasksOf rq).take maxTasks.toNat := by
      refine List.mem_of_getElem? (i := i) ?_
      rw [List.getElem?_take, if_pos hi, ht]
    rw [sum_map_runnable, sum_timeShare (List.ne_nil_of_mem (mem_runnableTimes hmem hr))]

theorem not_determined (hne : tasksOf rq ≠ []) (hlt : (tasksOf rq).length < maxTasks) :
    ¬SharesFilled rq maxTasks := by
  intro h
  have hkeep : ∀ a : ℚ, ((fairnessCpuShares rq (List.replicate maxTasks.toNat a) maxTasks).take
      maxTasks.toNat)[(tasksOf rq).length]? = some a := fun a => by
    have hlen : maxTasks ≤ (List.replicate maxTasks.toNat a).length := by
      rw [List.length_replicate]
      omega
    rw [shares_of_ne_nil hpos hlen hne, Nat.min_eq_right (by omega),
      List.take_of_length_le (l := tasksOf rq) (by omega), List.getElem?_take, if_pos (by omega),
      List.getElem?_append_right (by rw [List.length_map]), List.length_map, Nat.sub_self,
      List.getElem?_drop, List.getElem?_replicate, if_pos (by omega)]
  have hsame := h.determined (List.replicate maxTasks.toNat 0) (List.replicate maxTasks.toNat 1)
    (by rw [List.length_replicate]; omega) (by rw [List.length_replicate]; omega)
  have hzero := hkeep 0
  rw [hsame, hkeep 1] at hzero
  exact absurd hzero (by decide)

end Array

/-- All of the first `maxTasks` entries are filled exactly when there are no tasks at all,
or at least as many as entries. -/
theorem cpu_shares_filled_iff (rq : Option CfsRq) (maxTasks : ℤ) (hpos : 0 < maxTasks)
    (hfit : (runnableTimes ((tasksOf rq).take maxTasks.toNat)).sum < 2 ^ 64) :
    SharesFilled rq maxTasks ↔ tasksOf rq = [] ∨ maxTasks ≤ (tasksOf rq).length := by
  refine ⟨fun h => ?_, fun h => ?_⟩
  · by_contra hnot
    obtain ⟨hne, hlt⟩ := not_or.1 hnot
    exact not_determined hpos hne (not_le.1 hlt) h
  · rcases h with hnil | hle
    · exact sharesFilled_of_nil hpos hnil
    · exact sharesFilled_of_le hpos hle hfit

theorem cpu_shares_filled_iff_two : SharesFilled (some (freshRq [(0, 0), (1, 0)] 0)) 2 :=
  (cpu_shares_filled_iff (some (freshRq [(0, 0), (1, 0)] 0)) 2 (by decide) (by decide)).2
    (Or.inr (by decide))

/-- One task and two entries: the second entry keeps the 7 it held. -/
theorem cpu_shares_not_filled :
    ¬∀ (rq : Option CfsRq) (maxTasks : ℤ), 0 < maxTasks →
      (runnableTimes ((tasksOf rq).take maxTasks.toNat)).sum < 2 ^ 64 → SharesFilled rq maxTasks := by
  intro h
  have hidle := (h (some (freshRq [(0, 0)] 0)) 2 (by decide) (by decide)).idle [7, 7] (by decide) 1
    (by decide) (fun t ht => by cases ht)
  exact absurd hidle (by decide)

end ApexCfs
