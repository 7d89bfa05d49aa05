import DodgeClock.AppThread
import DodgeClock.Deadlines

/-!
# The buzzer

interface_update calls buzz when it has written a clock below three to the panel. buzz
switches the PWM output on and starts buzz_timer, whose expiry function switches it off.
The thread of dclk_app executes buzz, and the expiry interrupt may land between its two
statements: it then cuts off the sound that was just begun.
-/
namespace DodgeClock
open EventSystem OneShotTimer

/-- MAX_PERIOD, in nanoseconds. -/
def maxPeriod : ℕ := 2000000

/-- What buzz_timer is started for, in milliseconds. -/
def buzzTime : ℕ := 500

/-- The output of pwm_buzz: its period and the width of its pulses. -/
structure Pwm where
  period : ℕ
  pulse : ℕ
  deriving DecidableEq, Repr

/-- pwm_set_dt; a failing call changes nothing. -/
def Pwm.set (err : ℤ) (period pulse : ℕ) (p : Pwm) : Pwm :=
  if err ≠ 0 then p else ⟨period, pulse⟩

/-- The statements of buzz. -/
inductive BuzzStmt where
  | pwmSet | timerStart
  deriving DecidableEq, Repr

def buzz : List BuzzStmt := [.pwmSet, .timerStart]

/-- `buzzing` is what dclk_app has still to execute of buzz. -/
structure Buzzer where
  console : Console
  pwm : Pwm
  buzzTimer : Timer
  buzzing : List BuzzStmt

def Buzzer.boot (bonds acceptList : List Addr) : Buzzer :=
  ⟨.boot bonds acceptList, ⟨0, 0⟩, .stopped, []⟩

/-- `buzz` is the next statement of buzz, and `stopBuzz` the expiry of buzz_timer; both
carry the result of pwm_set_dt. -/
inductive BuzzEvent where
  | ctrl (e : Event)
  | app (r : DrawResults)
  | buzz (err : ℤ)
  | stopBuzz (err : ℤ)
  deriving DecidableEq, Repr

/-- The time the event takes. -/
def Event.time : Event → ℕ
  | .elapse n => n
  | _ => 0

/-- interface_update, executed next, calls buzz. -/
def Console.Buzzes (r : DrawResults) (s : Console) : Prop :=
  s.app.pc = .update ∧ (interfaceUpdate r s.app.want s.screen).buzzed = true

instance (r : DrawResults) (s : Console) : Decidable (s.Buzzes r) :=
  inferInstanceAs (Decidable (_ ∧ _))

def buzzer : Machine Buzzer BuzzEvent where
  step
    | s, .ctrl e =>
        if s.buzzTimer.Allows e.time then
          (console.step s.console (.ctrl e)).map fun c =>
            { s with console := c, buzzTimer := s.buzzTimer.elapse e.time }
        else none
    | s, .app r =>
        if s.buzzing = [] then
          (console.step s.console (.app r)).map fun c =>
            { s with console := c, buzzing := if s.console.Buzzes r then DodgeClock.buzz else [] }
        else none
    | s, .buzz err =>
        if s.console.ctrl.off = true then none
        else match s.buzzing with
          | .pwmSet :: rest =>
              some { s with pwm := s.pwm.set err maxPeriod (maxPeriod / 2), buzzing := rest }
          | .timerStart :: rest => some { s with buzzTimer := .started buzzTime, buzzing := rest }
          | [] => none
    | s, .stopBuzz err =>
        if s.console.ctrl.off = false ∧ s.buzzTimer.Due then
          some { s with pwm := s.pwm.set err 0 0, buzzTimer := .stopped }
        else none

/-- The transitions of the buzzer. -/
inductive BuzzStep (s : Buzzer) : BuzzEvent → Buzzer → Prop
  | ctrl {e : Event} {c : State} (ha : s.buzzTimer.Allows e.time) (hc : Step s.console.ctrl e c) :
      BuzzStep s (.ctrl e)
        { s with console := { s.console with ctrl := c }, buzzTimer := s.buzzTimer.elapse e.time }
  | app (r : DrawResults) (hb : s.buzzing = []) :
      BuzzStep s (.app r)
        { s with
          console := s.console.exec r
          buzzing := if s.console.Buzzes r then DodgeClock.buzz else [] }
  | pwmSet (err : ℤ) {rest : List BuzzStmt} (hb : s.buzzing = .pwmSet :: rest) :
      BuzzStep s (.buzz err)
        { s with pwm := s.pwm.set err maxPeriod (maxPeriod / 2), buzzing := rest }
  | timerStart (err : ℤ) {rest : List BuzzStmt} (hb : s.buzzing = .timerStart :: rest) :
      BuzzStep s (.buzz err) { s with buzzTimer := .started buzzTime, buzzing := rest }
  | stopBuzz (err : ℤ) (hd : s.buzzTimer.Due) :
      BuzzStep s (.stopBuzz err) { s with pwm := s.pwm.set err 0 0, buzzTimer := .stopped }

theorem buzzStep_inv {s t : Buzzer} {e : BuzzEvent} (h : buzzer.step s e = some t) :
    BuzzStep s e t := by
  cases e with
  | ctrl e =>
      simp only [buzzer, console, Option.ite_none_right_eq_some, Option.map_eq_some_iff] at h
      obtain ⟨ha, c, ⟨d, hd, rfl⟩, rfl⟩ := h
      exact .ctrl ha (step_inv hd)
  | app r =>
      simp only [buzzer, console, Option.ite_none_right_eq_some, Option.map_eq_some_iff,
        Option.ite_none_left_eq_some, Option.some.injEq] at h
      obtain ⟨hb, c, ⟨-, rfl⟩, rfl⟩ := h
      exact .app r hb
  | buzz err =>
      simp only [buzzer, Option.ite_none_left_eq_some] at h
      obtain ⟨-, h⟩ := h
      split at h
      · next rest hb => obtain rfl := Option.some.inj h; exact .pwmSet err hb
      · next rest hb => obtain rfl := Option.some.inj h; exact .timerStart err hb
      · cases h
  | stopBuzz err =>
      simp only [buzzer, Option.ite_none_right_eq_some, Option.some.injEq] at h
      obtain ⟨⟨-, hd⟩, rfl⟩ := h
      exact .stopBuzz err hd

section Sound

/-- The PWM puts out pulses. -/
def Buzzer.Sounds (s : Buzzer) : Prop := s.pwm.pulse ≠ 0

instance (s : Buzzer) : Decidable s.Sounds := inferInstanceAs (Decidable (_ ≠ _))

/-- The buzzer sounds while buzz_timer runs or is about to be started, and only then. -/
def Buzzer.Timely (s : Buzzer) : Prop :=
  s.Sounds ↔ s.buzzTimer.Running ∨ s.buzzing = [.timerStart]

instance (s : Buzzer) : Decidable s.Timely := inferInstanceAs (Decidable (_ ↔ _))

/-- Switching on succeeds if the buzzer is silent. Switching off succeeds too, unless it
comes between the two statements of buzz, where it has to fail to do no harm. -/
def Heard (s : Buzzer) : BuzzEvent → Prop
  | .buzz err => s.buzzing.head? = some .pwmSet → err = 0 ∨ s.Sounds
  | .stopBuzz err => err = 0 ↔ s.buzzing ≠ [.timerStart]
  | .ctrl _ | .app _ => True

instance Heard.decidable (s : Buzzer) : (e : BuzzEvent) → Decidable (Heard s e)
  | .buzz err => inferInstanceAs (Decidable (_ → err = 0 ∨ s.Sounds))
  | .stopBuzz _ => inferInstanceAs (Decidable (_ ↔ _))
  | .ctrl _ | .app _ => .isTrue trivial

/-- A rest of buzz is what dclk_app executes. -/
def Buzzer.InBuzz (s : Buzzer) : Prop := s.buzzing <:+ buzz

theorem inBuzz_step {s t : Buzzer} {e : BuzzEvent} (hi : s.InBuzz) (h : BuzzStep s e t) :
    t.InBuzz := by
  unfold Buzzer.InBuzz at hi ⊢
  cases h
  case app r hb =>
    show (if _ then _ else _) <:+ buzz
    split_ifs
    · exact List.suffix_refl _
    · exact List.nil_suffix
  case pwmSet err rest hb | timerStart err rest hb =>
    rw [hb] at hi
    exact (List.suffix_cons _ rest).trans hi
  case ctrl | stopBuzz => exact hi

/-- The statement that starts the timer is the last one. -/
theorem rest_of_suffix {st : BuzzStmt} {rest : List BuzzStmt} (h : st :: rest <:+ buzz) :
    st = .pwmSet ∧ rest = [.timerStart] ∨ st = .timerStart ∧ rest = [] := by
  simp only [buzz, List.suffix_cons_iff, List.cons.injEq] at h
  rcases h with h | h | h
  · exact .inl h
  · exact .inr h
  · simp at h

theorem timely_step {s t : Buzzer} {e : BuzzEvent} (hi : s.InBuzz) (hs : s.Timely)
    (h : BuzzStep s e t) : t.Timely ↔ Heard s e := by
  unfold Buzzer.Timely Buzzer.Sounds at hs
  unfold Buzzer.InBuzz at hi
  cases h
  case ctrl e c ha hc =>
    refine iff_of_true ?_ trivial
    rw [Buzzer.Timely, Buzzer.Sounds, Timer.running_elapse]
    exact hs
  case app r hb =>
    refine iff_of_true ?_ trivial
    rw [hb] at hs
    show s.pwm.pulse ≠ 0 ↔ s.buzzTimer.Running ∨ (if _ then _ else _) = _
    split_ifs <;> simpa [buzz] using hs
  case pwmSet err rest hb =>
    rw [hb] at hi
    obtain ⟨-, rfl⟩ | ⟨h, -⟩ := rest_of_suffix hi
    · simp only [Buzzer.Timely, Buzzer.Sounds, Heard, hb, Pwm.set, maxPeriod]
      by_cases herr : err = 0 <;> simp [herr]
    · cases h
  case timerStart err rest hb =>
    rw [hb] at hi
    obtain ⟨h, -⟩ | ⟨-, rfl⟩ := rest_of_suffix hi
    · cases h
    · rw [hb] at hs
      refine iff_of_true ?_ (by simp [Heard, hb])
      simpa [Buzzer.Timely, Buzzer.Sounds] using hs
  case stopBuzz err hd =>
    have hon : s.pwm.pulse ≠ 0 := hs.mpr (.inl hd.running)
    simp only [Buzzer.Timely, Buzzer.Sounds, Heard, Pwm.set]
    by_cases herr : err = 0 <;> by_cases hb : s.buzzing = [.timerStart] <;>
      simp [herr, hb, hon]

theorem timely_boot (bonds acceptList : List Addr) : (Buzzer.boot bonds acceptList).Timely := by
  simp [Buzzer.Timely, Buzzer.Sounds, Buzzer.boot]

/-- Over any run, the buzzer sounds exactly while buzz_timer runs or is about to be
started, if and only if the PWM can be switched when needed and no expiry switches it off
between the two statements of buzz: one that comes there must fail to. -/
theorem timely_iff (bonds acceptList : List Addr) (es : List BuzzEvent) (s : Buzzer)
    (hrun : buzzer.run (.boot bonds acceptList) es = some s) :
    (∀ v ∈ buzzer.visited (.boot bonds acceptList) es, v.Timely) ↔
      buzzer.Meets Heard (.boot bonds acceptList) es :=
  Machine.forall_visited_iff_meets (fun _ _ _ hi _ _ h => inBuzz_step hi (buzzStep_inv h))
    (fun _ _ _ hi hs h => timely_step hi hs (buzzStep_inv h)) hrun List.nil_suffix
    (timely_boot bonds acceptList)

/-- The first iteration of dclk_app, which shows zero and buzzes, and the end of the sound. -/
def firstBuzz : List BuzzEvent :=
  List.replicate 7 (.app .success) ++
    [.buzz 0, .buzz 0, .app .success, .ctrl (.elapse 500), .stopBuzz 0]

theorem timely_iff_firstBuzz : ∃ s, buzzer.run (.boot [] []) firstBuzz = some s ∧
    ((∀ v ∈ buzzer.visited (.boot [] []) firstBuzz, v.Timely) ↔
      buzzer.Meets Heard (.boot [] []) firstBuzz) :=
  ⟨_, rfl, timely_iff [] [] firstBuzz _ rfl⟩

end Sound

section Length

/-- The step starts or stops buzz_timer. -/
def SetsBuzzTimer (s : Buzzer) : BuzzEvent → Prop
  | .buzz _ => s.buzzing.head? = some .timerStart
  | .stopBuzz _ => True
  | .ctrl _ | .app _ => False

theorem now_eq_step {s t : State} {e : Event} (h : Step s e t) : t.now = s.now + e.time := by
  cases h
  all_goals rfl

theorem buzzTimer_timed :
    Timed buzzer (fun s => s.buzzTimer) (fun s => s.console.ctrl.now) SetsBuzzTimer where
  passes {s t e} h hset := by
    cases buzzStep_inv h
    case ctrl e c ha hc => exact ⟨e.time, ha, rfl, now_eq_step hc⟩
    case app r hb =>
      refine ⟨0, fun _ => Nat.zero_le _, (Timer.elapse_zero _).symm, ?_⟩
      show (s.console.exec r).ctrl.now = _
      rw [Console.exec_ctrl]
      rfl
    case pwmSet err rest hb =>
      exact ⟨0, fun _ => Nat.zero_le _, (Timer.elapse_zero _).symm, rfl⟩
    case timerStart err rest hb => exact absurd (by simp [SetsBuzzTimer, hb]) hset
    case stopBuzz err hd => exact absurd trivial hset

/-- A frame with a clock below three was the last one written to the panel. -/
def Console.Warns (s : Console) : Prop := ∃ r, s.screen.written = some r ∧ r.clock < 3

theorem warns_of_buzzes {s : Console} {r : DrawResults} (h : s.Buzzes r) : (s.exec r).Warns := by
  obtain ⟨hpc, hbuzzed⟩ := h
  by_cases hskip : s.screen.dis = s.app.want
  · rw [interfaceUpdate_skip hskip] at hbuzzed
    cases hbuzzed
  · by_cases hr : r.Ok
    · rw [interfaceUpdate_draw hskip hr] at hbuzzed
      refine ⟨s.app.want, ?_, by simpa using hbuzzed⟩
      simp [Console.exec, hpc, interfaceUpdate_draw hskip hr]
    · have hnone : (interfaceUpdate r s.app.want s.screen).buzzed = false := by
        unfold interfaceUpdate
        rw [if_neg hskip]
        split_ifs with hprint hfinalize
        · rfl
        · rfl
        · exact absurd ⟨not_not.mp hprint, not_not.mp hfinalize⟩ hr
      rw [hnone] at hbuzzed
      cases hbuzzed

/-- dclk_app is in buzz for the frame it has just written. -/
def Buzzer.ForFrame (s : Buzzer) : Prop := s.buzzing ≠ [] → s.console.Warns

theorem forFrame_step {s t : Buzzer} {e : BuzzEvent} (hi : s.ForFrame) (h : BuzzStep s e t) :
    t.ForFrame := by
  cases h
  case app r hb =>
    intro hne
    have hbuzzes : s.console.Buzzes r := by
      by_contra hnot
      exact hne (if_neg hnot)
    exact warns_of_buzzes hbuzzes
  case pwmSet err rest hb | timerStart err rest hb => exact fun _ => hi (by simp [hb])
  case ctrl | stopBuzz => exact hi

/-- Whenever buzz_timer runs, it was started at most half a second ago, by a call of buzz
made when a clock below three had just been written to the panel. -/
theorem warned_of_running (bonds acceptList : List Addr) (es : List BuzzEvent) (s : Buzzer)
    (hrun : buzzer.run (.boot bonds acceptList) es = some s) (hs : s.buzzTimer.Running) :
    ∃ u err v, buzzer.Last SetsBuzzTimer (.boot bonds acceptList) es u (.buzz err) v ∧
      s.console.ctrl.now ≤ u.console.ctrl.now + buzzTime ∧ u.console.Warns := by
  obtain ⟨u, e, v, hlast, hrunning⟩ :=
    buzzTimer_timed.exists_last_of_running hrun Timer.not_running_stopped hs
  obtain ⟨before, hbefore⟩ := hlast.reach
  obtain ⟨after, hafter, hsets⟩ := hlast.rest hrun
  have hframe : u.ForFrame :=
    Machine.run_invariant' (I := Buzzer.ForFrame)
      (fun _ _ _ hi h => forFrame_step hi (buzzStep_inv h)) hbefore (fun h => absurd rfl h)
  have hle := buzzTimer_timed.now_le hafter hsets hrunning
  have hset := hlast.holds
  cases buzzStep_inv hlast.step_eq
  case timerStart err rest hb =>
    exact ⟨u, err, _, hlast, hle, hframe (by simp [hb])⟩
  case stopBuzz err hd => exact absurd hrunning Timer.not_running_stopped
  case pwmSet err rest hb => simp [SetsBuzzTimer, hb] at hset
  case ctrl | app => exact hset.elim

/-- The first iteration, and a quarter of a second. -/
def soundingBuzz : List BuzzEvent :=
  List.replicate 7 (.app .success) ++ [.buzz 0, .buzz 0, .ctrl (.elapse 250)]

theorem warned_of_running_sounding : ∃ s, buzzer.run (.boot [] []) soundingBuzz = some s ∧
    ∃ u err v, buzzer.Last SetsBuzzTimer (.boot [] []) soundingBuzz u (.buzz err) v ∧
      s.console.ctrl.now ≤ u.console.ctrl.now + buzzTime ∧ u.console.Warns :=
  ⟨_, rfl, warned_of_running [] [] soundingBuzz _ rfl (by decide)⟩

end Length
end DodgeClock
