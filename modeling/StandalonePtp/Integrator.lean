import StandalonePtp.Discipline

/-! The integrator of ptp.c against the exact sum it stands for, and the field of the
adjustment word that the sum has to fit in the end. -/
namespace StandalonePtp

open Run Words

/- The reports a run consists of. -/

def Report.FromNormalised (r : Report) : Prop :=
  ∃ syncedTime sysTs : PtpTimestamp, syncedTime.Normalised ∧ sysTs.Normalised ∧
    r.diffTs = ptpTimeSub syncedTime sysTs

theorem nanosec_of_normalised {r : Report} (normal : r.FromNormalised) :
    r.diffTs.nanosec.toInt.natAbs < 1000000000 := by
  obtain ⟨syncedTime, sysTs, synced, sys, diff⟩ := normal
  rw [diff, ptpTimeSub_nanosec synced sys]
  unfold PtpTimestamp.Normalised at synced sys
  omega

/-- A twentieth of any word leaves room for an error below one second. -/
theorem control_fits {errorNs : Int32} (small : errorNs.toInt.natAbs < 1000000000)
    (syncDiffIntegratedNs : Int32) :
    (errorNs.toInt + syncDiffIntegratedNs.toInt.tdiv 20).natAbs < 2147483648 := by
  have low := syncDiffIntegratedNs.le_toInt
  have high := syncDiffIntegratedNs.toInt_lt
  have fraction := tdiv_cases syncDiffIntegratedNs.toInt 20
  omega

theorem freqAdj_normalised (d : Device) {r : Report} (normal : r.FromNormalised) :
    (freqAdj r.diffTs.nanosec (integrated d r)).toInt =
      r.diffTs.nanosec.toInt + (integrated d r).toInt.tdiv 20 := by
  have room := control_fits (nanosec_of_normalised normal) (integrated d r)
  exact freqAdj_toInt (by unfold Fits32; omega)

/- The sum of the fine errors since the last coarse one. -/

def exactSum (total : Int) (r : Report) : Int :=
  if r.diffTs.seconds ≠ 0 then 0 else total + r.diffTs.nanosec.toInt

def exactIntegral (reports : List Report) : Int := reports.foldl exactSum 0

def integral (d : Device) : Int := d.syncDiffIntegratedNs.toInt

theorem integral_fits (d : Device) : Fits32 (integral d) :=
  ⟨d.syncDiffIntegratedNs.le_toInt, d.syncDiffIntegratedNs.toInt_lt⟩

theorem processReport_integral (d : Device) (r : Report) (fits : Fits32 (exactSum (integral d) r)) :
    integral (processReport d r).1 = exactSum (integral d) r := by
  by_cases fine : r.diffTs.seconds = 0
  · rw [exactSum, if_neg (not_not_intro fine)] at fits ⊢
    rw [integral, processReport_fine fine]
    exact add32 fits
  · rw [exactSum, if_pos fine, integral, processReport_coarse fine]
    rfl

/-- The report leaves the exact sum in the integrator; neither of the two additions that
a fine one makes overflows. -/
def Integrates (before : List Report) (r : Report) : Prop :=
  let d := after processReport .init before
  (r.diffTs.seconds = 0 →
    Fits32 (integral d + r.diffTs.nanosec.toInt) ∧
      Fits32 (r.diffTs.nanosec.toInt + (integrated d r).toInt.tdiv 20)) ∧
    integral (processReport d r).1 = exactIntegral (before ++ [r])

theorem exactIntegral_append (before : List Report) (r : Report) :
    exactIntegral (before ++ [r]) = exactSum (exactIntegral before) r := by
  rw [exactIntegral, List.foldl_append]
  rfl

theorem integral_after (rs : List Report)
    (fits : ∀ before r later, rs = before ++ r :: later →
      Fits32 (exactIntegral (before ++ [r]))) :
    integral (after processReport .init rs) = exactIntegral rs :=
  after_computes processReport integral exactSum Fits32 processReport_integral rs .init fits

theorem integrates_of_fits {before : List Report} {r : Report} (normal : r.FromNormalised)
    (sum : integral (after processReport .init before) = exactIntegral before)
    (next : Fits32 (exactIntegral (before ++ [r]))) : Integrates before r := by
  rw [exactIntegral_append, ← sum] at next
  refine ⟨fun fine => ⟨?_, ?_⟩, ?_⟩
  · rwa [exactSum, if_neg (not_not_intro fine)] at next
  · have room := control_fits (nanosec_of_normalised normal)
      (integrated (after processReport .init before) r)
    unfold Fits32
    omega
  · rw [exactIntegral_append, ← sum]
    exact processReport_integral _ r next

/-- The integrator is the exact sum of a run, without any overflow, exactly if that sum
never leaves the range of the word. Nothing else keeps it there. -/
theorem integrator_exact_iff (rs : List Report) (normal : ∀ r ∈ rs, r.FromNormalised) :
    (∀ before r later, rs = before ++ r :: later → Integrates before r) ↔
      ∀ before r later, rs = before ++ r :: later → Fits32 (exactIntegral (before ++ [r])) := by
  constructor
  · intro exact before r later split
    rw [← (exact before r later split).2]
    exact integral_fits _
  · intro fits before r later split
    have member : r ∈ rs := by
      rw [split]
      exact List.mem_append_right _ List.mem_cons_self
    have earlier : integral (after processReport .init before) = exactIntegral before := by
      apply integral_after
      intro first q rest cut
      exact fits first q (rest ++ r :: later) (by rw [split, cut, List.append_assoc]; rfl)
    exact integrates_of_fits (normal r member) earlier (fits before r later split)

def sameSecond (synced sys : Int32) : Report :=
  ⟨⟨1000, synced⟩, ptpTimeSub ⟨1000, synced⟩ ⟨1000, sys⟩, ⟨1000, sys.toUInt32, 1000⟩⟩

theorem sameSecond_normalised {synced sys : Int32} (hs : (PtpTimestamp.mk 1000 synced).Normalised)
    (hsys : (PtpTimestamp.mk 1000 sys).Normalised) : (sameSecond synced sys).FromNormalised :=
  ⟨_, _, hs, hsys, rfl⟩

theorem two_reports_normalised :
    ∀ r ∈ [sameSecond 700 200, sameSecond 100 400], r.FromNormalised := by
  simp only [List.mem_cons, List.not_mem_nil, or_false, forall_eq_or_imp, forall_eq]
  exact ⟨sameSecond_normalised (by decide) (by decide),
    sameSecond_normalised (by decide) (by decide)⟩

theorem integrator_exact_example :
    (∀ before r later, [sameSecond 700 200, sameSecond 100 400] = before ++ r :: later →
        Integrates before r) ↔
      ∀ before r later, [sameSecond 700 200, sameSecond 100 400] = before ++ r :: later →
        Fits32 (exactIntegral (before ++ [r])) :=
  integrator_exact_iff [sameSecond 700 200, sameSecond 100 400] two_reports_normalised

theorem second_behind_normalised : (sameSecond 999999999 0).FromNormalised :=
  sameSecond_normalised (by decide) (by decide)

theorem integrator_overflows :
    ¬ ∀ rs : List Report, (∀ r ∈ rs, r.FromNormalised) →
      ∀ before r later, rs = before ++ r :: later → Integrates before r := by
  intro h
  have normal : ∀ r ∈ List.replicate 3 (sameSecond 999999999 0), r.FromNormalised := by
    intro r hr
    rw [List.eq_of_mem_replicate hr]
    exact second_behind_normalised
  obtain ⟨exact, -⟩ := h _ normal (List.replicate 2 (sameSecond 999999999 0))
    (sameSecond 999999999 0) [] rfl
  have above := (exact (by decide)).1.2
  revert above
  decide

/- The field of the word. -/

def EncodesControl (d : Device) (r : Report) : Prop :=
  r.diffTs.seconds = 0 → returnsEarly d r = false →
    ∃ word, (processReport d r).2 = [⟨.tsuTimerAdjust, word⟩] ∧
      adjustmentStep word = r.diffTs.nanosec.toInt + (integrated d r).toInt.tdiv 20

/-- Error and sum are below 2^30 ns, the sum weighted by a twentieth. -/
def ControlInField (before : List Report) (r : Report) : Prop :=
  r.diffTs.seconds = 0 → inDeadZone (fineSum before) r = false →
    (20 * r.diffTs.nanosec.toInt + (fineSum (before ++ [r])).toInt).natAbs < 20 * 1073741824

theorem weighted_lt_iff {errorNs : Int} (small : errorNs.natAbs < 1000000000) (integral : Int) :
    (errorNs + integral.tdiv 20).natAbs < 1073741824 ↔
      (20 * errorNs + integral).natAbs < 20 * 1073741824 := by
  have fraction := tdiv_cases integral 20
  omega

theorem encodesControl_iff (d : Device) {r : Report} (normal : r.FromNormalised)
    (fine : r.diffTs.seconds = 0) (correcting : returnsEarly d r = false) :
    EncodesControl d r ↔
      (20 * r.diffTs.nanosec.toInt + (integrated d r).toInt).natAbs < 20 * 1073741824 := by
  have faithful := adjustmentStep_correct_iff d.tsu.fineTuneRegister
    (freqAdj r.diffTs.nanosec (integrated d r))
  rw [freqAdj_normalised d normal, weighted_lt_iff (nanosec_of_normalised normal)] at faithful
  rw [EncodesControl, processReport_fine fine, tuned_correcting correcting, ← faithful]
  simp only [fine, correcting, true_imp_iff, List.cons.injEq, XilOut32.mk.injEq, true_and,
    and_true, exists_eq_left']

theorem integrated_after (before : List Report) {r : Report} (fine : r.diffTs.seconds = 0) :
    integrated (after processReport .init before) r = fineSum (before ++ [r]) := by
  rw [integrated, after_sum, fineSum, fineSum, List.foldl_append, List.foldl_cons, List.foldl_nil]
  exact (if_neg (not_not_intro fine)).symm

/-- In a run from power-up every computed correction is encoded faithfully, exactly if each
of them fits the 30 bits. -/
theorem words_encode_control_iff (rs : List Report) (normal : ∀ r ∈ rs, r.FromNormalised) :
    Along processReport EncodesControl .init rs ↔
      ∀ before r later, rs = before ++ r :: later → ControlInField before r := by
  rw [along_iff]
  refine forall_congr' fun before => forall_congr' fun r => forall_congr' fun later =>
    forall_congr' fun split => ?_
  have member : r ∈ rs := by
    rw [split]
    exact List.mem_append_right _ List.mem_cons_self
  rw [ControlInField, ← returnsEarly_after]
  constructor
  · intro encodes fine correcting
    rw [← integrated_after before fine]
    exact (encodesControl_iff _ (normal r member) fine correcting).mp encodes
  · intro fits fine correcting
    have room := fits fine correcting
    rw [← integrated_after before fine] at room
    exact (encodesControl_iff _ (normal r member) fine correcting).mpr room fine correcting

theorem two_controls_encoded :
    Along processReport EncodesControl .init [sameSecond 700 200, sameSecond 100 400] := by
  refine (words_encode_control_iff _ two_reports_normalised).mpr ?_
  intro before r later split
  rcases before with _ | ⟨first, _ | ⟨second, before⟩⟩
  · cases split
    exact fun _ _ => by decide
  · cases split
    exact fun _ _ => by decide
  · simp at split

/-- The second report of almost a second asks for 1099999998 ns, and 26258174 are written. -/
theorem control_truncated :
    ¬ ∀ rs : List Report, (∀ r ∈ rs, r.FromNormalised) →
      Along processReport EncodesControl .init rs := by
  intro h
  have normal : ∀ r ∈ [sameSecond 999999999 0, sameSecond 999999999 0], r.FromNormalised := by
    simp only [List.mem_cons, List.not_mem_nil, or_false, forall_eq_or_imp, forall_eq]
    exact ⟨second_behind_normalised, second_behind_normalised⟩
  obtain ⟨word, written, faithful⟩ := (h _ normal).2.1 (by decide) (by decide)
  have encoded : (processReport (processReport .init (sameSecond 999999999 0)).1
      (sameSecond 999999999 0)).2 = [⟨.tsuTimerAdjust, 26258174⟩] := by decide
  rw [encoded] at written
  simp only [List.cons.injEq, XilOut32.mk.injEq, true_and, and_true] at written
  rw [← written] at faithful
  revert faithful
  decide

end StandalonePtp
