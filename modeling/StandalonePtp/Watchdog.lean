import StandalonePtp.Run

/-! The software workaround for a receiver that stalls: it is switched off and on again when
nothing has been received for two intervals. -/
namespace StandalonePtp

open Run

/-- The control register, and the count of frames that the previous call has read. -/
structure RxWatch where
  nwctrl : UInt32
  lastRxFrmsCntr : UInt32
  deriving DecidableEq, Repr

/-- The identification register and the counter of received frames, which reading clears. -/
structure RxReading where
  moduleId : UInt32
  rxCnt : UInt32
  deriving DecidableEq, Repr

def RxReading.gigeversion (r : RxReading) : UInt32 := (r.moduleId >>> 16) &&& 0xFFF

/-- Only this version of the controller has the fault. -/
def RxReading.faulty (r : RxReading) : Bool := r.gigeversion = 2

variable (rxen : UInt32)

/-- The answers are the words written to the control register. -/
def resetrxOnNoRxdata (w : RxWatch) (r : RxReading) : RxWatch × List UInt32 :=
  if r.gigeversion = 2 then
    if r.rxCnt = 0 ∧ w.lastRxFrmsCntr = 0 then
      let off := w.nwctrl &&& ~~~rxen
      let on := off ||| rxen
      (⟨on, r.rxCnt⟩, [off, on])
    else (⟨w.nwctrl, r.rxCnt⟩, [])
  else (w, [])

/-- The count that the next call compares with. -/
def lastCount (initial : UInt32) (before : List RxReading) : UInt32 :=
  ((latest RxReading.faulty before).map RxReading.rxCnt).getD initial

theorem lastRxFrmsCntr_after (w : RxWatch) (before : List RxReading) :
    (after (resetrxOnNoRxdata rxen) w before).lastRxFrmsCntr = lastCount w.lastRxFrmsCntr before := by
  refine register_latest (resetrxOnNoRxdata rxen) RxWatch.lastRxFrmsCntr RxReading.faulty
    RxReading.rxCnt ?_ ?_ before w
  · intro w r faulty
    rw [resetrxOnNoRxdata, if_pos (of_decide_eq_true faulty)]
    split <;> rfl
  · intro w r sound
    rw [resetrxOnNoRxdata, if_neg (of_decide_eq_false sound)]

theorem off_on (word : UInt32) : (word &&& ~~~rxen) ||| rxen = word ||| rxen := by
  apply UInt32.toBitVec_inj.mp
  apply BitVec.eq_of_getLsbD_eq
  intro i inside
  simp only [UInt32.toBitVec_or, UInt32.toBitVec_and, UInt32.toBitVec_not, BitVec.getLsbD_or,
    BitVec.getLsbD_and, BitVec.getLsbD_not, inside, decide_true, Bool.true_and]
  cases word.toBitVec.getLsbD i <;> cases rxen.toBitVec.getLsbD i <;> rfl

/-- Once the receiver is enabled, no call changes what the control register holds. -/
theorem nwctrl_after (w : RxWatch) (enabled : w.nwctrl ||| rxen = w.nwctrl)
    (before : List RxReading) :
    (after (resetrxOnNoRxdata rxen) w before).nwctrl = w.nwctrl := by
  refine after_invariant (resetrxOnNoRxdata rxen) (fun v => v.nwctrl = w.nwctrl) ?_ rfl before
  intro v same r
  rw [resetrxOnNoRxdata]
  split
  · split
    · simp only [off_on, same, enabled]
    · exact same
  · exact same

/-- In every run on an enabled receiver, a call writes the control register exactly if the
controller is of the faulty version and two counts in a row are zero; it then clears the
enabling bits and sets them again, and leaves the register as it was. -/
theorem receiver_reset_iff (w : RxWatch) (enabled : w.nwctrl ||| rxen = w.nwctrl)
    (before : List RxReading) (r : RxReading) :
    let call := resetrxOnNoRxdata rxen (after (resetrxOnNoRxdata rxen) w before) r
    call.2 = (if r.faulty = true ∧ r.rxCnt = 0 ∧ lastCount w.lastRxFrmsCntr before = 0 then
      [w.nwctrl &&& ~~~rxen, w.nwctrl] else []) ∧ call.1.nwctrl = w.nwctrl := by
  have count := lastRxFrmsCntr_after rxen w before
  have control := nwctrl_after rxen w enabled before
  have kept := nwctrl_after rxen w enabled (before ++ [r])
  rw [after_append] at kept
  refine ⟨?_, kept⟩
  simp only [resetrxOnNoRxdata, count, control, off_on, enabled, RxReading.faulty,
    decide_eq_true_eq]
  by_cases faulty : r.gigeversion = 2
  · by_cases idle : r.rxCnt = 0 ∧ lastCount w.lastRxFrmsCntr before = 0
    · simp [faulty, idle]
    · simp [faulty, idle]
  · simp [faulty]

/-- The first call after power-up already resets a receiver that has been idle. -/
theorem receiver_reset_first :
    (resetrxOnNoRxdata 4 (after (resetrxOnNoRxdata 4) ⟨0x1C, 0⟩ []) ⟨0x00020000, 0⟩).2 =
      [0x18, 0x1C] :=
  (receiver_reset_iff 4 ⟨0x1C, 0⟩ (by decide) [] ⟨0x00020000, 0⟩).1

end StandalonePtp
