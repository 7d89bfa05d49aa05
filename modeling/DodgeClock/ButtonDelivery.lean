import DodgeClock.ButtonLine
import DodgeClock.PairingOrder

/-!
# The buttons of the controller

Seen from one button, the controller is a line: the other buttons, the timers, the
main thread and the Bluetooth stack only decide when its handler runs. So the
controller loses no press of a button exactly if its handler never finds it released
after it was pressed since the handler's previous read.
-/
namespace DodgeClock
open EventSystem OneShotTimer OnceQueue

section Projection
variable (b : Button)

def markOf : Happening → Option Mark
  | .sampled c level => if c = b then some (.level level) else none
  | .delivered c evt asOf => if c = b then some (.event evt asOf) else none
  | _ => none

/-- What the history says of one button, the latest first. -/
def marks (hist : List Happening) : List Mark := hist.filterMap (markOf b)

def stageOf (worker : Option Frame) : Stage :=
  if worker = some ⟨.button b, 0⟩ then .started
  else if worker = some ⟨.button b, 1⟩ then .read
  else .idle

def lineOf (s : State) : Line :=
  ⟨(s.btns b).val, (s.btns b).evt, (s.btns b).asOf, decide (.button b ∈ s.queue),
    stageOf b s.worker, marks b s.hist⟩

/-- What an event of the controller means for the line. -/
def lineEvent (s : State) : Event → Option LineEvent
  | .edge c level => if c = b then some (.sample level) else none
  | .dequeue => if s.queue.head? = some (.button b) then some .start else none
  | .stmt _ =>
      if s.worker = some ⟨.button b, 0⟩ then some .read
      else if s.worker = some ⟨.button b, 1⟩ then some .deliver
      else none
  | _ => none

@[simp] theorem marks_sampled (c : Button) (level : ℕ) (hist : List Happening) :
    marks b (.sampled c level :: hist) =
      if c = b then .level level :: marks b hist else marks b hist := by
  by_cases hc : c = b <;> simp [marks, markOf, hc]

@[simp] theorem marks_delivered (c : Button) (evt asOf : ℕ) (hist : List Happening) :
    marks b (.delivered c evt asOf :: hist) =
      if c = b then .event evt asOf :: marks b hist else marks b hist := by
  by_cases hc : c = b <;> simp [marks, markOf, hc]

@[simp] theorem marks_handled (c : Button) (evt time : ℕ) (hist : List Happening) :
    marks b (.handled c evt time :: hist) = marks b hist := rfl

@[simp] theorem marks_countdown (hist : List Happening) :
    marks b (.countdown :: hist) = marks b hist := rfl

@[simp] theorem marks_stopped (hist : List Happening) :
    marks b (.stopped :: hist) = marks b hist := rfl

@[simp] theorem marks_expired (hist : List Happening) :
    marks b (.expired :: hist) = marks b hist := rfl

theorem levels_marks (hist : List Happening) : levels (marks b hist) = samples b hist := by
  induction hist with
  | nil => rfl
  | cons x hist ih =>
      cases x with
      | sampled c level => by_cases hc : c = b <;> simp [hc, ih]
      | delivered c evt asOf => by_cases hc : c = b <;> simp [hc, ih]
      | handled c evt time => simp [ih]
      | countdown | stopped | expired => simp [ih]

theorem lastVal_marks (hist : List Happening) : lastVal (marks b hist) = lastLevel b hist := by
  induction hist with
  | nil => rfl
  | cons x hist ih =>
      cases x with
      | sampled c level => by_cases hc : c = b <;> simp [hc, ih, lastVal]
      | delivered c evt asOf => by_cases hc : c = b <;> simp [hc, ih, lastVal]
      | handled c evt time => simp [ih]
      | countdown | stopped | expired => simp [ih]

theorem stageOf_of_item {worker : Option Frame} (h : worker.map (·.item) ≠ some (.button b)) :
    stageOf b worker = .idle := by
  have h0 : worker ≠ some ⟨.button b, 0⟩ := by
    rintro rfl
    exact h rfl
  have h1 : worker ≠ some ⟨.button b, 1⟩ := by
    rintro rfl
    exact h rfl
  simp [stageOf, h0, h1]

theorem lineOf_step {s t : State} {e : Event} (hn : s.queue.Nodup) (h : Step s e t) :
    match lineEvent b s e with
    | none => lineOf b t = lineOf b s
    | some k => line.step (lineOf b s) k = some (lineOf b t) := by
  cases h
  case edge c level =>
    by_cases hc : c = b
    · subst hc
      simp [lineEvent, line, lineOf, State.buttonEventCb, Btn.sample]
    · simp [lineEvent, lineOf, State.buttonEventCb, hc, Ne.symm hc]
  case dequeue w q hw hq =>
    by_cases hwb : w = .button b
    · subst hwb
      have hnot : .button b ∉ q := (List.nodup_cons.mp (hq ▸ hn)).1
      simp [lineEvent, line, lineOf, hq, hw, hnot, stageOf]
    · simp [lineEvent, lineOf, hq, hw, hwb, Ne.symm hwb, stageOf]
  case readVal r c hw =>
    by_cases hc : c = b
    · subst hc
      simp [lineEvent, line, lineOf, hw, stageOf, Btn.readVal, levels_marks]
    · simp [lineEvent, lineOf, hw, stageOf, hc, Ne.symm hc]
  case callActive r c hw ha =>
    by_cases hc : c = b
    · subst hc
      simp [lineEvent, line, lineOf, hw, stageOf]
    · simp [lineEvent, lineOf, hw, stageOf, hc]
  case callActiveEmpty r c hw ha =>
    by_cases hc : c = b
    · subst hc
      simp [lineEvent, line, lineOf, hw, stageOf]
    · simp [lineEvent, lineOf, hw, stageOf, hc]
  case stopSleep r c pc hw ha =>
    have hpc : pc ≠ 0 ∧ pc ≠ 1 := by cases ha <;> simp
    simp [lineEvent, lineOf, hw, stageOf, hpc.1, hpc.2]
  case pairDCLK r pc st hw ha =>
    split_ifs <;> simp [lineEvent, lineOf, hw, stageOf]
  case advertiseDCLK r pc st hw ha =>
    split_ifs <;> simp [lineEvent, lineOf, hw, stageOf]
  all_goals simp_all [lineEvent, lineOf, stageOf]

/-- The controller refines the line of each of its buttons. -/
theorem refines_line :
    Refines controller line (fun s => s.queue.Nodup) (lineOf b) (lineEvent b) where
  keeps hn h := nodup_step hn (step_inv h)
  stutters {s t e} hn h hnone := by
    have hstep := lineOf_step b hn (step_inv h)
    simpa only [hnone] using hstep
  steps {s t e k} hn h hsome := by
    have hstep := lineOf_step b hn (step_inv h)
    simpa only [hsome] using hstep

theorem fresh_boot (bonds acceptList : List Addr) : (lineOf b (boot bonds acceptList)).Fresh :=
  ⟨by cases b <;> rfl, by cases b <;> rfl, rfl, rfl, rfl⟩

/-- The edges of the pin of `b` and the steps of its handler, in order. -/
def schedule (bonds acceptList : List Addr) (es : List Event) : List LineEvent :=
  controller.outputs (lineEvent b) (boot bonds acceptList) es

theorem line_run {bonds acceptList : List Addr} {es : List Event} {s : State}
    (hrun : controller.run (boot bonds acceptList) es = some s) :
    line.run (lineOf b (boot bonds acceptList)) (schedule b bonds acceptList es) =
      some (lineOf b s) :=
  (refines_line b).run List.nodup_nil hrun

/-- When the work of a button is done, no press of it was lost exactly if its handler never
read a released button that was pressed since the previous read, or, where that found a
press, since its delivery. -/
theorem noPressLost_iff (bonds acceptList : List Addr) (es : List Event) (s : State)
    (hrun : controller.run (boot bonds acceptList) es = some s) (hq : .button b ∉ s.queue)
    (hw : s.worker.map (·.item) ≠ some (.button b)) :
    NoPressLost (marks b s.hist) ↔ AlwaysInTime [] (schedule b bonds acceptList es) := by
  have hfresh := fresh_boot b bonds acceptList
  have hline := line_run b hrun
  rw [← meets_iff_alwaysInTime (follows_of_fresh hfresh) hline]
  exact noPressLost_iff_meets hfresh hline (by simpa [lineOf] using hq) (stageOf_of_item b hw)

/-- When the work of a button is done, its event is the one made of its last level. -/
theorem evt_of_done {bonds acceptList : List Addr} {es : List Event} {s : State}
    (hrun : controller.run (boot bonds acceptList) es = some s) (hq : .button b ∉ s.queue)
    (hw : s.worker.map (·.item) ≠ some (.button b)) :
    (s.btns b).evt = 1 ↔ ∃ level, lastLevel b s.hist = some level ∧ level ≠ 0 := by
  have hinv : UpToDate (lineOf b s) :=
    Machine.run_invariant' (fun _ _ _ hi h => upToDate_step hi h) (line_run b hrun)
      (upToDate_of_fresh (fresh_boot b bonds acceptList))
  rw [← lastVal_marks]
  cases hl : lastVal (marks b s.hist) with
  | none =>
      have hzero : (s.btns b).evt = 0 := (hinv.untouched hl).1
      simp [hzero]
  | some level =>
      rcases hinv.evt level hl with hqueued | hstarted | hevt
      · exact absurd hqueued (by simpa [lineOf] using hq)
      · have hidle : (lineOf b s).stage = .idle := stageOf_of_item b hw
        rw [hidle] at hstarted
        cases hstarted
      · have heq : (s.btns b).evt = evtOf level := hevt
        rw [heq, evtOf_eq_one]
        simp

end Projection

/-- start is pressed and released twice; the first release comes while the handler of
the press is running. -/
def promptRun : List Event :=
  wholeEvent .start 1 1 ++ [Event.edge .start 0] ++ stmts 4 ++ work 3 ++
    wholeEvent .start 1 5 ++ wholeEvent .start 0 3

theorem noPressLost_promptRun :
    ∃ s, controller.run (boot [] []) promptRun = some s ∧ NoPressLost (marks .start s.hist) :=
  ⟨_, rfl, (noPressLost_iff .start [] [] promptRun _ rfl (by decide) (by decide)).mpr (by decide)⟩

/-- start is pressed and released before its handler runs. -/
def hastyRun : List Event := [Event.edge .start 1, .edge .start 0] ++ work 3

theorem not_noPressLost :
    ¬ ∀ (b : Button) (bonds acceptList : List Addr) (es : List Event) (s : State),
      controller.run (boot bonds acceptList) es = some s → .button b ∉ s.queue →
        s.worker.map (·.item) ≠ some (.button b) → NoPressLost (marks b s.hist) := by
  intro h
  have hall := h .start [] [] hastyRun _ rfl (by decide) (by decide)
  exact not_noPressLost_of_lost ⟨[], 2, [.level 0], 1, [], rfl, by decide, by simp, by decide⟩ hall

end DodgeClock
