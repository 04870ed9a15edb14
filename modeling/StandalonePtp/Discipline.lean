import StandalonePtp.Exchange

/-! Which branch a report takes and which word its fine tuning writes. -/
namespace StandalonePtp

open Run Words

/- The branch. -/

def TakesCoarse (syncTs : PtpTimestamp) (handled : Int32 × List Call) : Prop :=
  handled = (0, [.coarseTimeReceived syncTs.seconds syncTs.nanosec.toUInt32])

def TakesFine (difference : Int) (handled : Int32 × List Call) : Prop :=
  ∃ errorNs : Int32, errorNs.toInt = difference ∧
    handled.2.head? = some (.tsuClockFineTune errorNs handled.1 ptpMaxErrNs)

/-- The report of two times is handled according to what really lies between them. -/
def FollowsDifference (syncDiffIntegratedNs : Int32) (syncedTime sysTs : PtpTimestamp) : Prop :=
  let difference := syncedTime.total - sysTs.total
  let handled := ptpProcessTimeDiff initParam syncDiffIntegratedNs syncedTime
    (ptpTimeSub syncedTime sysTs)
  (TakesCoarse syncedTime handled ↔ 1000000000 ≤ difference.natAbs) ∧
    (TakesFine difference handled ↔ difference.natAbs < 1000000000)

/-- The seconds are next to each other, and the nanoseconds take back a part of the second. -/
def Straddles (a b : PtpTimestamp) : Prop :=
  (a.seconds.toInt = b.seconds.toInt + 1 ∧ a.nanosec.toInt < b.nanosec.toInt) ∨
    (b.seconds.toInt = a.seconds.toInt + 1 ∧ b.nanosec.toInt < a.nanosec.toInt)

theorem ptpTimeSub_seconds_zero (pt1 pt2 : PtpTimestamp) :
    (ptpTimeSub pt1 pt2).seconds = 0 ↔ pt1.seconds = pt2.seconds := by
  simp only [ptpTimeSub, ptpTimeAdd, ← Int64.sub_eq_add_neg]
  constructor
  · intro zero
    rw [← Int64.sub_add_cancel pt1.seconds pt2.seconds, zero, Int64.zero_add]
  · intro same
    rw [same, Int64.sub_self]

theorem ptpTimeSub_nanosec {pt1 pt2 : PtpTimestamp} (normal1 : pt1.Normalised)
    (normal2 : pt2.Normalised) :
    (ptpTimeSub pt1 pt2).nanosec.toInt = pt1.nanosec.toInt - pt2.nanosec.toInt := by
  unfold PtpTimestamp.Normalised at normal1 normal2
  simp only [ptpTimeSub, ptpTimeAdd, ← Int32.sub_eq_add_neg]
  exact sub32 (by unfold Fits32; omega)

theorem coarse_branch {diffTs : PtpTimestamp} (h : diffTs.seconds ≠ 0)
    (syncDiffIntegratedNs : Int32) (syncTs : PtpTimestamp) :
    TakesCoarse syncTs (ptpProcessTimeDiff initParam syncDiffIntegratedNs syncTs diffTs) ∧
      ∀ difference,
        ¬ TakesFine difference (ptpProcessTimeDiff initParam syncDiffIntegratedNs syncTs diffTs) := by
  have handled : ptpProcessTimeDiff initParam syncDiffIntegratedNs syncTs diffTs =
      (0, [.coarseTimeReceived syncTs.seconds syncTs.nanosec.toUInt32]) := by
    simp [ptpProcessTimeDiff, h, initParam]
  refine ⟨handled, ?_⟩
  rintro difference ⟨errorNs, -, first⟩
  simp [handled] at first

theorem fine_branch {diffTs : PtpTimestamp} (h : diffTs.seconds = 0)
    (syncDiffIntegratedNs : Int32) (syncTs : PtpTimestamp) :
    ¬ TakesCoarse syncTs (ptpProcessTimeDiff initParam syncDiffIntegratedNs syncTs diffTs) ∧
      TakesFine diffTs.nanosec.toInt
        (ptpProcessTimeDiff initParam syncDiffIntegratedNs syncTs diffTs) := by
  constructor
  · intro coarse
    simp [TakesCoarse, ptpProcessTimeDiff, h, initParam] at coarse
  · exact ⟨diffTs.nanosec, rfl, by simp [ptpProcessTimeDiff, h, initParam]⟩

/-- The branch follows the difference except when the two times lie on both sides of a
second less than one second apart. -/
theorem branch_follows_difference_iff (syncDiffIntegratedNs : Int32)
    (syncedTime sysTs : PtpTimestamp) (synced : syncedTime.Normalised) (sys : sysTs.Normalised) :
    FollowsDifference syncDiffIntegratedNs syncedTime sysTs ↔ ¬ Straddles syncedTime sysTs := by
  have zero := ptpTimeSub_seconds_zero syncedTime sysTs
  have nanosec := ptpTimeSub_nanosec synced sys
  obtain ⟨syncedLow, syncedHigh⟩ := synced
  obtain ⟨sysLow, sysHigh⟩ := sys
  simp only [FollowsDifference, Straddles, PtpTimestamp.total, PtpTimestamp.parts, Parts.total]
  by_cases same : syncedTime.seconds = sysTs.seconds
  · obtain ⟨notCoarse, fine⟩ :=
      fine_branch (zero.mpr same) syncDiffIntegratedNs syncedTime
    have difference : syncedTime.seconds.toInt * 1000000000 + syncedTime.nanosec.toInt -
        (sysTs.seconds.toInt * 1000000000 + sysTs.nanosec.toInt) =
        (ptpTimeSub syncedTime sysTs).nanosec.toInt := by
      rw [same, nanosec]
      omega
    have small : (ptpTimeSub syncedTime sysTs).nanosec.toInt.natAbs < 1000000000 := by
      rw [nanosec]
      omega
    rw [difference]
    have level : syncedTime.seconds.toInt = sysTs.seconds.toInt := by rw [same]
    refine iff_of_true ⟨iff_of_false notCoarse (by omega), iff_of_true fine small⟩ (by omega)
  · obtain ⟨coarse, notFine⟩ :=
      coarse_branch (mt zero.mp same) syncDiffIntegratedNs syncedTime
    have apart : syncedTime.seconds.toInt ≠ sysTs.seconds.toInt := mt Int64.toInt_inj.mp same
    simp only [coarse, notFine, true_iff, false_iff]
    omega

theorem branch_same_second :
    FollowsDifference 0 ⟨7, 300⟩ ⟨7, 100⟩ ↔ ¬ Straddles ⟨7, 300⟩ ⟨7, 100⟩ :=
  branch_follows_difference_iff 0 ⟨7, 300⟩ ⟨7, 100⟩ (by decide) (by decide)

theorem one_nanosecond_coarse :
    ¬ ∀ syncedTime sysTs : PtpTimestamp, syncedTime.Normalised → sysTs.Normalised →
      FollowsDifference 0 syncedTime sysTs := by
  intro h
  have follows := (h ⟨1, 0⟩ ⟨0, 999999999⟩ (by decide) (by decide)).1
  have coarse : TakesCoarse ⟨1, 0⟩ (ptpProcessTimeDiff initParam 0 ⟨1, 0⟩
      (ptpTimeSub ⟨1, 0⟩ ⟨0, 999999999⟩)) := rfl
  have large := follows.mp coarse
  revert large
  decide

/- The word. -/

def correctionWord (freqAdj : Int32) : UInt32 := (TsuAdjustment.correct ⟨0, 0, 0⟩ freqAdj).word

def returnsEarly (d : Device) (r : Report) : Bool :=
  deadZone r.diffTs.nanosec (integrated d r) ptpMaxErrNs

/-- The one word written for a report is the correction computed from it, or asks for no
step if none was computed. -/
def WritesCurrent (d : Device) (r : Report) : Prop :=
  ∃ word, (processReport d r).2 = [⟨.tsuTimerAdjust, word⟩] ∧
    if returnsEarly d r then adjustmentStep word = 0
    else word = correctionWord (freqAdj r.diffTs.nanosec (integrated d r))

theorem tuned_early {d : Device} {r : Report} (early : returnsEarly d r = true) :
    tuned d r = d.tsu := by
  rw [tuned, tsuClockFineTune]
  exact if_pos early

theorem tuned_correcting {d : Device} {r : Report} (correcting : returnsEarly d r = false) :
    (tuned d r).fineTuneRegister =
      d.tsu.fineTuneRegister.correct (freqAdj r.diffTs.nanosec (integrated d r)) := by
  have go : ¬ deadZone r.diffTs.nanosec (integrated d r) ptpMaxErrNs = true := by
    rw [← returnsEarly, correcting]
    decide
  rw [tuned, tsuClockFineTune, if_neg go]

def ReservedClear (d : Device) : Prop := d.tsu.fineTuneRegister.reserved = 0

theorem process_reservedClear (d : Device) (h : ReservedClear d) (r : Report) :
    ReservedClear (processReport d r).1 := by
  by_cases fine : r.diffTs.seconds = 0
  · rw [processReport_fine fine]
    simp only [ReservedClear, tsuSystickCb]
    cases early : returnsEarly d r with
    | true => rw [tuned_early early]; exact h
    | false => rw [tuned_correcting early]; exact h
  · rw [processReport_coarse fine]
    exact h

theorem writesCurrent_iff {d : Device} (clear : ReservedClear d) {r : Report}
    (fine : r.diffTs.seconds = 0) :
    WritesCurrent d r ↔ (returnsEarly d r = true → d.tsu.fineTuneRegister.nanosec = 0) := by
  rw [WritesCurrent, processReport_fine fine]
  cases early : returnsEarly d r with
  | true =>
    rw [tuned_early early]
    constructor
    · rintro ⟨word, written, zero⟩ _
      simp only [List.cons.injEq, XilOut32.mk.injEq, and_true, true_and] at written
      rw [if_pos rfl, ← written] at zero
      exact (adjustmentStep_zero_iff _).mp zero
    · intro zero
      refine ⟨_, rfl, ?_⟩
      rw [if_pos rfl]
      exact (adjustmentStep_zero_iff _).mpr (zero rfl)
  | false =>
    refine iff_of_true ⟨_, rfl, ?_⟩ (fun impossible => absurd impossible (by decide))
    rw [if_neg (by decide), tuned_correcting early, correctionWord]
    have same : d.tsu.fineTuneRegister.correct (freqAdj r.diffTs.nanosec (integrated d r)) =
        TsuAdjustment.correct ⟨0, 0, 0⟩ (freqAdj r.diffTs.nanosec (integrated d r)) := by
      simp only [TsuAdjustment.correct, TsuAdjustment.mk.injEq, and_true, true_and]
      exact clear
    rw [same]

/- What the reports before have left in the integrator and in the register. -/

/-- The sum of the fine errors since the last coarse one, as the words add up. -/
def nextSum (sum : Int32) (r : Report) : Int32 :=
  if r.diffTs.seconds ≠ 0 then 0 else sum + r.diffTs.nanosec

def fineSum (history : List Report) : Int32 := history.foldl nextSum 0

def inDeadZone (sum : Int32) (r : Report) : Bool :=
  deadZone r.diffTs.nanosec (sum + r.diffTs.nanosec) ptpMaxErrNs

/-- The corrections that reports lead to, beginning with a sum. -/
def corrections (sum : Int32) : List Report → List Int32
  | [] => []
  | r :: rest =>
    (if r.diffTs.seconds = 0 ∧ inDeadZone sum r = false then
      [freqAdj r.diffTs.nanosec (sum + r.diffTs.nanosec)]
    else []) ++ corrections (nextSum sum r) rest

theorem process_sum (d : Device) (r : Report) :
    (processReport d r).1.syncDiffIntegratedNs = nextSum d.syncDiffIntegratedNs r := by
  by_cases fine : r.diffTs.seconds = 0
  · rw [processReport_fine fine, nextSum, if_neg (not_not_intro fine)]
    rfl
  · rw [processReport_coarse fine, nextSum, if_pos fine]

theorem after_sum (history : List Report) :
    (after processReport .init history).syncDiffIntegratedNs = fineSum history :=
  after_computes processReport Device.syncDiffIntegratedNs nextSum (fun _ => True)
    (fun d r _ => process_sum d r) history .init (fun _ _ _ _ => trivial)

theorem returnsEarly_after (history : List Report) (r : Report) :
    returnsEarly (after processReport .init history) r = inDeadZone (fineSum history) r := by
  rw [← after_sum]
  rfl

/-- The magnitude of a correction as the register holds it. -/
def correctionField (u : Int32) : BitVec 30 := u.abs.toBitVec.setWidth 30

theorem correctionField_zero_iff (u : Int32) :
    correctionField u = 0 ↔ u.toInt.natAbs % 1073741824 = 0 := by
  have magnitude := BitVec.toInt_eq_toNat_cond u.toBitVec
  have small := u.toBitVec.isLt
  have negative := BitVec.msb_eq_decide u.toBitVec
  have abs : u.abs.toBitVec.toNat = _ := BitVec.toNat_abs
  rw [Int32.toInt_toBitVec] at magnitude
  rw [correctionField, ← BitVec.toNat_inj, BitVec.toNat_setWidth, abs]
  change _ = 0 ↔ _
  rw [negative]
  split at magnitude <;> simp only [decide_eq_true_eq] <;> split <;> omega

/-- The register keeps the latest correction, over coarse reports too. -/
theorem after_register (history : List Report) (d : Device) :
    (after processReport d history).tsu.fineTuneRegister.nanosec =
      ((corrections d.syncDiffIntegratedNs history).getLast?.map correctionField).getD
        d.tsu.fineTuneRegister.nanosec := by
  induction history generalizing d with
  | nil => rfl
  | cons r rest ih =>
    rw [after, ih, process_sum, corrections]
    by_cases fine : r.diffTs.seconds = 0
    · rw [processReport_fine fine]
      cases early : inDeadZone d.syncDiffIntegratedNs r with
      | true =>
        have kept : (tsuSystickCb (tuned d r)).1.fineTuneRegister = d.tsu.fineTuneRegister := by
          change (tuned d r).fineTuneRegister = _
          rw [tuned_early early]
        simp [kept]
      | false =>
        have corrected : (tsuSystickCb (tuned d r)).1.fineTuneRegister = _ := tuned_correcting early
        rw [if_pos ⟨fine, rfl⟩, List.singleton_append, List.getLast?_cons]
        simp only [corrected]
        cases (corrections (nextSum d.syncDiffIntegratedNs r) rest).getLast? <;> rfl
    · rw [processReport_coarse fine]
      simp [fine]

/-- The early return leaves the register alone and the word is written nevertheless, so
a fine report is answered by its own correction, unless the dead zone finds an earlier one
that has anything in its 30 bits. -/
theorem fine_word_current_iff (history : List Report) (r : Report)
    (fine : r.diffTs.seconds = 0) :
    WritesCurrent (after processReport .init history) r ↔
      (inDeadZone (fineSum history) r = true →
        ∀ u ∈ (corrections 0 history).getLast?, u.toInt.natAbs % 1073741824 = 0) := by
  have start : ReservedClear .init := rfl
  have clear := after_invariant processReport ReservedClear process_reservedClear start history
  have held : (after processReport .init history).tsu.fineTuneRegister.nanosec =
      ((corrections 0 history).getLast?.map correctionField).getD 0 :=
    after_register history .init
  rw [writesCurrent_iff clear fine, returnsEarly_after, held]
  refine imp_congr_right fun _ => ?_
  cases (corrections 0 history).getLast? with
  | none => simp
  | some u => simpa using correctionField_zero_iff u

def fineReport (nanosec : Int32) : Report := ⟨⟨1000, 0⟩, ⟨0, nanosec⟩, ⟨1000, 0, 1000⟩⟩

theorem first_fine_word :
    WritesCurrent (after processReport .init []) (fineReport 100) ∧
      WritesCurrent (after processReport .init [fineReport 700]) (fineReport 600) :=
  ⟨(fine_word_current_iff [] (fineReport 100) rfl).mpr (by simp [corrections]),
    (fine_word_current_iff [fineReport 700] (fineReport 600) rfl).mpr
      (fun early => absurd early (by decide))⟩

/-- The correction by 735 ns of the first report is written again for the second. -/
theorem correction_applied_twice :
    ¬ ∀ (history : List Report) (r : Report), r.diffTs.seconds = 0 →
      WritesCurrent (after processReport .init history) r := by
  intro h
  obtain ⟨word, written, zero⟩ := h [fineReport 700] (fineReport (-35)) rfl
  have early : returnsEarly (after processReport .init [fineReport 700]) (fineReport (-35)) = true :=
    by decide
  have again : (processReport (after processReport .init [fineReport 700]) (fineReport (-35))).2 =
      [⟨.tsuTimerAdjust, 735⟩] := by decide
  rw [again] at written
  simp only [List.cons.injEq, XilOut32.mk.injEq, and_true, true_and] at written
  rw [if_pos early, ← written] at zero
  revert zero
  decide

end StandalonePtp
