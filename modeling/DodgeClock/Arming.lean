import DodgeClock.InterfaceInit
import DodgeClock.WorkQueue

/-!
# A controller that fails to start

dclk_init returns the first error it meets, and main ends on it without another word.
sleep_timer is armed by the last statement of main only, and advertise_DCLK submitted by
the last of dclk_init, so a controller whose start-up fails neither advertises nor powers
off: its battery drains until somebody starts a countdown. main always comes to its end,
unless a handler has to call a callback that setup_button has not set yet.
-/
namespace DodgeClock
open EventSystem OneShotTimer OnceQueue

/-- Results of the calls dclk_init makes. -/
structure DclkInitResults where
  btEnable : ℤ
  authCbRegister : ℤ
  settingsLoad : ℤ
  deriving DecidableEq, Repr

namespace DclkInitResults

def success : DclkInitResults := ⟨0, 0, 0⟩

def Ok (r : DclkInitResults) : Prop := r = .success

instance (r : DclkInitResults) : Decidable r.Ok := inferInstanceAs (Decidable (_ = _))

/-- dclk_init, as far as the work queue and the result go. DCLK_INFO is not defined and
CONFIG_SETTINGS is enabled. -/
def dclkInit (r : DclkInitResults) (queue : List Work) : List Work × ℤ :=
  if r.btEnable ≠ 0 then (queue, r.btEnable)
  else if r.authCbRegister ≠ 0 then (queue, r.authCbRegister)
  else if r.settingsLoad ≠ 0 then (queue, r.settingsLoad)
  else (submit .advertiseDCLK queue, 0)

theorem dclkInit_err (r : DclkInitResults) (queue : List Work) :
    (r.dclkInit queue).2 = 0 ↔ r.Ok := by
  obtain ⟨enable, auth, settings⟩ := r
  simp only [dclkInit, Ok, success, mk.injEq]
  split_ifs <;> simp_all

theorem dclkInit_queue (r : DclkInitResults) (queue : List Work) :
    (r.dclkInit queue).1 = if r.Ok then submit .advertiseDCLK queue else queue := by
  obtain ⟨enable, auth, settings⟩ := r
  simp only [dclkInit, Ok, success, mk.injEq]
  split_ifs <;> simp_all

end DclkInitResults

/-- The calls main makes have the results `r`, in interface_init, and `d`, in dclk_init. -/
def MainReturns (r : InterfaceResults) (d : DclkInitResults) (s : Boot) : BootEvent → Prop
  | .main m => match s.todo.head? with
      | some (.addCallback b) => m.call = (r.button b).addCallback
      | some .displayInit => m.display = r.display
      | some .dclkInit => m.call = (d.dclkInit s.ctrl.queue).2
      | _ => True
  | _ => True

instance MainReturns.decidable (r : InterfaceResults) (d : DclkInitResults) (s : Boot) :
    (e : BootEvent) → Decidable (MainReturns r d s e)
  | .main m =>
      have : Decidable (match s.todo.head? with
          | some (.addCallback b) => m.call = (r.button b).addCallback
          | some .displayInit => m.display = r.display
          | some .dclkInit => m.call = (d.dclkInit s.ctrl.queue).2
          | _ => True) := by
        split <;> infer_instance
      this
  | .block | .app _ | .ctrl _ => .isTrue trivial

section Arming
variable {r : InterfaceResults} {d : DclkInitResults} {s t : Boot} {e : BootEvent}

theorem MainReturns.returns (h : MainReturns r d s e) : Returns r s e := by
  cases e with
  | main m =>
      simp only [MainReturns, Returns] at h ⊢
      split <;> simp_all
  | block | app _ | ctrl _ => trivial

/-- The calls main depends on. -/
def StartsUp (r : InterfaceResults) (d : DclkInitResults) : Prop :=
  (r.button .stop).addCallback = 0 ∧ d.Ok

instance (r : InterfaceResults) (d : DclkInitResults) : Decidable (StartsUp r d) :=
  inferInstanceAs (Decidable (_ ∧ _))

/-- How far main has come, as the controller has it. -/
structure Progress (r : InterfaceResults) (d : DclkInitResults) (s : Boot) : Prop where
  initializing : Initializing r s
  unarmed : s.todo ≠ [] → s.ctrl.armed = false
  ready : s.todo ≠ [] → (s.ctrl.ready = true ↔ .dclkInit ∉ s.todo)
  succeeded : s.todo ≠ [] → .dclkInit ∉ s.todo → d.Ok
  ended : s.todo = [] → (s.ctrl.armed = true ↔ StartsUp r d) ∧ (s.ctrl.ready = true ↔ StartsUp r d)

/-- main goes on behind dclk_init with the queue that dclk_init leaves, if no call fails. -/
theorem execMain_dclkInit {m : MainResults} {u : Boot} (h : s.execMain m .dclkInit = some u)
    (hm : m.call = (d.dclkInit s.ctrl.queue).2) :
    u.ctrl.queue = (d.dclkInit s.ctrl.queue).1 ∧ u.ctrl.armed = s.ctrl.armed ∧
      (if d.Ok then u.todo = s.todo ∧ u.err = s.err ∧ u.ctrl.ready = true
        else u.todo = [] ∧ u.ctrl.ready = s.ctrl.ready) := by
  rw [d.dclkInit_queue]
  simp only [Boot.execMain, hm, d.dclkInit_err] at h
  split_ifs at h ⊢ with hok
  · obtain ⟨c, hc, rfl⟩ := Option.map_eq_some_iff.mp h
    cases step_inv hc
    exact ⟨rfl, rfl, rfl, rfl, rfl⟩
  · obtain rfl := Option.some.inj h
    exact ⟨rfl, rfl, rfl, rfl⟩

theorem progress_reset (r : InterfaceResults) (d : DclkInitResults) (bonds acceptList : List Addr) :
    Progress r d (.reset bonds acceptList) := by
  have hadd : MainStmt.addCallback .stop ∈ mainProgram := by decide
  have hcheck : MainStmt.checkErr ∈ mainProgram := by decide
  have hinit : MainStmt.dclkInit ∈ mainProgram := by decide
  refine ⟨⟨List.suffix_rfl, fun _ hno => absurd hadd hno, fun _ hno => absurd hcheck hno⟩,
    fun _ => rfl, fun _ => iff_of_false Bool.false_ne_true (not_not.mpr hinit),
    fun _ hno => absurd hinit hno, fun hend => ?_⟩
  exact absurd hend (List.cons_ne_nil _ _)

/-- dclk_init is followed by two statements, and preceded by all others. -/
def Placed : List MainStmt → Prop
  | [] => True
  | .dclkInit :: rest | .powerManageInit :: rest => rest ≠ [] ∧ .dclkInit ∉ rest
  | .startSleepTimer :: rest => rest = []
  | .displayInit :: rest => .dclkInit ∈ rest.tail
  | _ :: rest => .dclkInit ∈ rest

instance Placed.decidable : (l : List MainStmt) → Decidable (Placed l)
  | [] => .isTrue trivial
  | .dclkInit :: _ | .powerManageInit :: _ => inferInstanceAs (Decidable (_ ∧ _))
  | .startSleepTimer :: _ => inferInstanceAs (Decidable (_ = _))
  | .displayInit :: _ | .pinConfigure _ :: _ | .interruptConfigure _ :: _ | .initCallback _ :: _
  | .addCallback _ :: _ | .workInit _ :: _ | .setActive _ :: _ | .checkErr :: _
  | .buzzerInit :: _ => inferInstanceAs (Decidable (_ ∈ _))

theorem placed_of_suffix {l : List MainStmt} (h : l <:+ mainProgram) : Placed l := by
  have htails : ∀ l ∈ mainProgram.tails, Placed l := by decide
  exact htails l ((List.mem_tails _ _).mpr h)

/-- main goes on before dclk_init. -/
theorem Progress.before (hi : Progress r d s) (hinit : Initializing r t)
    (hmem : .dclkInit ∈ s.todo) (hmem' : .dclkInit ∈ t.todo)
    (harmed : t.ctrl.armed = s.ctrl.armed) (hready : t.ctrl.ready = s.ctrl.ready) :
    Progress r d t := by
  have hne : s.todo ≠ [] := List.ne_nil_of_mem hmem
  have hne' : t.todo ≠ [] := List.ne_nil_of_mem hmem'
  refine ⟨hinit, fun _ => harmed.trans (hi.unarmed hne), fun _ => ?_, fun _ hno => ?_,
    fun hend => absurd hend hne'⟩
  · rw [hready, hi.ready hne]
    exact iff_of_false (not_not.mpr hmem) (not_not.mpr hmem')
  · exact absurd hmem' hno

/-- main has ended. -/
theorem Progress.ends (hi : Progress r d s) (hinit : Initializing r t) (hne : s.todo ≠ [])
    (hmem : .dclkInit ∈ s.todo) (hend : t.todo = []) (harmed : t.ctrl.armed = s.ctrl.armed)
    (hready : t.ctrl.ready = s.ctrl.ready) (hfails : ¬ StartsUp r d) : Progress r d t := by
  have hready' : ¬ t.ctrl.ready = true := by
    rw [hready, hi.ready hne]
    exact not_not.mpr hmem
  have harmed' : ¬ t.ctrl.armed = true := by simp [harmed, hi.unarmed hne]
  exact ⟨hinit, fun h => absurd hend h, fun h => absurd hend h, fun h => absurd hend h,
    fun _ => ⟨iff_of_false harmed' hfails, iff_of_false hready' hfails⟩⟩

theorem progress_main {m : MainResults} {st : MainStmt} {rest : List MainStmt} {u : Boot}
    (hi : Progress r d s) (hc : MainReturns r d s (.main m)) (hinit : Initializing r t)
    (h : RunsMain s t m st rest u) : Progress r d t := by
  obtain ⟨htodo, hu, htodo', -, -, hctrl⟩ := h
  have hplaced : Placed (st :: rest) := placed_of_suffix (htodo ▸ hi.initializing.suffix)
  have hne : s.todo ≠ [] := by simp [htodo]
  cases st with
  | checkErr =>
      have hmem : MainStmt.dclkInit ∈ s.todo := htodo ▸ List.mem_cons_of_mem _ hplaced
      obtain rfl := Option.some.inj hu
      by_cases h0 : s.err = 0
      · rw [if_pos h0] at htodo' hctrl
        exact hi.before hinit hmem (htodo' ▸ hplaced) (by rw [hctrl]; rfl) (by rw [hctrl]; rfl)
      · rw [if_neg h0] at htodo' hctrl
        refine hi.ends hinit hne hmem htodo' (by rw [hctrl]; rfl) (by rw [hctrl]; rfl) ?_
        rintro ⟨hstop, -⟩
        have hadd : MainStmt.addCallback .stop ∉ s.todo := by
          have htails : ∀ l ∈ mainProgram.tails, l.head? = some .checkErr →
              MainStmt.addCallback .stop ∉ l := by decide
          exact htails _ ((List.mem_tails _ _).mpr hi.initializing.suffix) (by rw [htodo]; rfl)
        have hkept := hi.initializing.kept hne hadd
        rw [hstop, abs_zero] at hkept
        exact h0 hkept
  | displayInit =>
      have hmem : MainStmt.dclkInit ∈ rest := List.mem_of_mem_tail hplaced
      obtain ⟨hsame, -, -, hgoes⟩ := execMain_displayInit hu
      refine hi.before hinit (htodo ▸ List.mem_cons_of_mem _ hmem) ?_ (by rw [hctrl, hsame]; rfl)
        (by rw [hctrl, hsame]; rfl)
      rw [htodo']
      rcases hgoes with hgoes | hgoes <;> rw [hgoes]
      · exact hmem
      · exact hplaced
  | dclkInit =>
      have hmem : MainStmt.dclkInit ∈ s.todo := htodo ▸ List.mem_cons_self
      have hcall : m.call = (d.dclkInit s.ctrl.queue).2 := by simpa [MainReturns, htodo] using hc
      obtain ⟨-, harmed, hresult⟩ := execMain_dclkInit hu hcall
      obtain ⟨hrest, hlast⟩ := hplaced
      by_cases hok : d.Ok
      · rw [if_pos hok] at hresult
        obtain ⟨hgoes, -, hready⟩ := hresult
        rw [hgoes] at htodo'
        refine ⟨hinit, fun _ => ?_, fun _ => ?_, fun _ _ => hok, fun hend => ?_⟩
        · rw [hctrl, harmed]
          exact hi.unarmed hne
        · rw [hctrl, htodo']
          exact iff_of_true hready hlast
        · exact absurd (htodo'.symm.trans hend) hrest
      · rw [if_neg hok] at hresult
        obtain ⟨hgone, hready⟩ := hresult
        exact hi.ends hinit hne hmem (htodo'.trans hgone) (by rw [hctrl, harmed]; rfl)
          (by rw [hctrl, hready]; rfl) fun hstarts => hok hstarts.2
  | powerManageInit =>
      obtain ⟨hrest, hlast⟩ := hplaced
      have hno : MainStmt.dclkInit ∉ s.todo := by simp [htodo, hlast]
      obtain rfl := Option.some.inj hu
      refine ⟨hinit, fun _ => ?_, fun _ => ?_, fun _ _ => hi.succeeded hne hno, fun hend => ?_⟩
      · rw [hctrl]
        exact hi.unarmed hne
      · rw [hctrl, htodo']
        exact iff_of_true ((hi.ready hne).mpr hno) hlast
      · exact absurd (htodo'.symm.trans hend) hrest
  | startSleepTimer =>
      obtain rfl : rest = [] := hplaced
      obtain ⟨c, hc', rfl⟩ := Option.map_eq_some_iff.mp hu
      have hno : MainStmt.dclkInit ∉ s.todo := by simp [htodo]
      have hstop : (r.button .stop).addCallback = 0 := by
        have hkept := hi.initializing.kept hne (by simp [htodo])
        have hchecked := hi.initializing.checked hne (by simp [htodo])
        exact abs_eq_zero.mp (hkept.symm.trans hchecked)
      have hstarts : StartsUp r d := ⟨hstop, hi.succeeded hne hno⟩
      have hready : s.ctrl.ready = true := (hi.ready hne).mpr hno
      have hend : t.todo = [] := htodo'
      refine ⟨hinit, fun h => absurd hend h, fun h => absurd hend h, fun h => absurd hend h,
        fun _ => ⟨iff_of_true ?_ hstarts, iff_of_true ?_ hstarts⟩⟩
      · rw [hctrl]
        cases step_inv hc'
        rfl
      · rw [hctrl]
        exact (ready_eq_of_step (step_inv hc') (by simp)).trans hready
  | pinConfigure | interruptConfigure | initCallback | addCallback | workInit | setActive
  | buzzerInit =>
      have hmem : MainStmt.dclkInit ∈ s.todo := htodo ▸ List.mem_cons_of_mem _ hplaced
      obtain rfl := Option.some.inj hu
      exact hi.before hinit hmem (htodo' ▸ hplaced) (by rw [hctrl]; rfl) (by rw [hctrl]; rfl)

theorem progress_step (hi : Progress r d s) (hc : MainReturns r d s e)
    (h : startup.step s e = some t) : Progress r d t := by
  have hinit := initializing_step hi.initializing hc.returns h
  rcases main_of_step h with hkeeps | ⟨m, st, rest, u, rfl, hruns⟩
  · refine ⟨hinit, ?_, ?_, ?_, ?_⟩ <;> rw [hkeeps.todo]
    · rw [hkeeps.armed]
      exact hi.unarmed
    · rw [hkeeps.ready]
      exact hi.ready
    · exact hi.succeeded
    · rw [hkeeps.armed, hkeeps.ready]
      exact hi.ended
  · exact progress_main hi hc hinit hruns

/-- sleep_timer has been started by main or at the end of a countdown. -/
def SleepCaused (s : State) : Prop :=
  s.clock.sleepTimer.Running ∨ s.off = true → s.armed = true ∨ .expired ∈ s.hist

theorem sleepCaused_step {s t : State} {e : Event} (hi : SleepCaused s) (h : Step s e t) :
    SleepCaused t := by
  cases h
  case dExpire hd => exact fun _ => .inr List.mem_cons_self
  case arm hr ha => exact fun _ => .inl rfl
  case sleepExpire hd => exact fun _ => hi (.inl hd.running)
  case elapse n hd hs =>
    intro hsleep
    simp only [Timer.running_elapse] at hsleep
    exact hi hsleep
  case stopSleep r b pc hw ha =>
    intro hsleep
    have hoff : s.off = true := hsleep.resolve_left Timer.not_running_stopped
    exact (hi (.inr hoff)).imp_right (List.mem_cons_of_mem _)
  case callActiveEmpty r b hw ha =>
    exact fun hsleep => (hi hsleep).imp_right fun hmem =>
      List.mem_cons_of_mem _ (List.mem_cons_of_mem _ hmem)
  case edge | callActive | startTimer | stopTimer | stopState =>
    exact fun hsleep => (hi hsleep).imp_right (List.mem_cons_of_mem _)
  all_goals exact hi

theorem sleepCaused_startup (hi : SleepCaused s.ctrl) (h : startup.step s e = some t) :
    SleepCaused t.ctrl := by
  cases bootStep_inv h with
  | timerInit r hw ha hstarted hops hctrl =>
      rw [hctrl]
      exact hi
  | stutter he hops hstarted hop hctrl =>
      rw [hctrl]
      exact hi
  | ctrl he hstarted hop hops hctrl => exact sleepCaused_step hi (step_inv hctrl)

theorem Progress.startsUp (hi : Progress r d s) (harmed : s.ctrl.armed = true) : StartsUp r d := by
  by_cases hend : s.todo = []
  · exact (hi.ended hend).1.mp harmed
  · rw [hi.unarmed hend] at harmed
    cases harmed

end Arming

section GoesOn
variable {r : InterfaceResults} {d : DclkInitResults} {s t u : Boot} {e : BootEvent}

/-- An edge comes from a button whose callback setup_button has set. -/
def FromSetUp (s : Boot) : BootEvent → Prop
  | .ctrl (.edge b _) => (s.setup b).active = true
  | _ => True

instance FromSetUp.decidable (s : Boot) : (e : BootEvent) → Decidable (FromSetUp s e)
  | .ctrl e => match e with
      | .edge b _ => inferInstanceAs (Decidable ((s.setup b).active = true))
      | .dequeue | .stmt _ | .dExpire | .sleepExpire | .elapse _ | .dclkInit | .arm
      | .connected _ _ | .connectFailed _ | .disconnected | .bonded => .isTrue trivial
  | .block | .main _ | .app _ => .isTrue trivial

/-- The work item of `b` is queued or runs. -/
def State.Asked (c : State) (b : Button) : Prop :=
  .button b ∈ c.queue ∨ c.worker.map (·.item) = some (.button b)

/-- Every handler that is asked for has a callback to call. -/
def Callable (s : Boot) : Prop := ∀ b, s.ctrl.Asked b → (s.setup b).active = true

/-- Only an edge asks for the handler of a button. -/
theorem asked_of_step {c c' : State} {k : Event} {b : Button} (h : Step c k c')
    (hb : c'.Asked b) : c.Asked b ∨ ∃ level, k = .edge b level := by
  cases h
  case edge x level =>
    by_cases hx : x = b
    · exact .inr ⟨level, by rw [hx]⟩
    · refine .inl (hb.imp_left fun hmem => ?_)
      rcases mem_submit.mp hmem with hmem | hnew
      · exact hmem
      · exact absurd (Work.button.inj hnew).symm hx
  case dequeue w q hw hq =>
    left
    rcases hb with hmem | hitem
    · exact .inl (hq ▸ List.mem_cons_of_mem w hmem)
    · exact .inl (by simpa [hq] using .inl (Option.some.inj hitem).symm)
  case dclkInit | connectFailed | disconnected | submitPair | submitAdvertise =>
    simp_all [State.Asked, mem_submit]
  case pairDCLK hw ha | advertiseDCLK hw ha =>
    left
    rcases hb with hmem | hitem
    · exact .inl hmem
    · split_ifs at hitem <;> simp at hitem
  all_goals simp_all [State.Asked]

theorem execMain_active {m : MainResults} {st : MainStmt} (h : s.execMain m st = some t)
    {b : Button} (hb : (s.setup b).active = true) : (t.setup b).active = true := by
  cases st with
  | addCallback c | workInit c =>
      obtain rfl := Option.some.inj h
      by_cases hc : b = c
      · subst hc
        simpa using hb
      · simpa [hc] using hb
  | setActive c =>
      obtain rfl := Option.some.inj h
      by_cases hc : b = c
      · simp [hc]
      · simpa [hc] using hb
  | dclkInit =>
      simp only [Boot.execMain] at h
      split_ifs at h
      · obtain ⟨c, -, rfl⟩ := Option.map_eq_some_iff.mp h
        exact hb
      · obtain rfl := Option.some.inj h
        exact hb
  | startSleepTimer =>
      obtain ⟨c, -, rfl⟩ := Option.map_eq_some_iff.mp h
      exact hb
  | checkErr =>
      obtain rfl := Option.some.inj h
      split_ifs <;> exact hb
  | pinConfigure | interruptConfigure | initCallback | displayInit | buzzerInit
  | powerManageInit =>
      obtain rfl := Option.some.inj h
      exact hb

/-- A callback that is set stays set. -/
theorem active_of_step (h : startup.step s e = some t) {b : Button}
    (hb : (s.setup b).active = true) : (t.setup b).active = true := by
  rcases main_of_step h with hkeeps | ⟨m, st, rest, u, -, hruns⟩
  · rw [hkeeps.setup]
    exact hb
  · rw [hruns.setup_eq]
    exact execMain_active hruns.exec hb

theorem callable_step (hi : Callable s) (hc : FromSetUp s e) (h : startup.step s e = some t) :
    Callable t := by
  intro b hb
  apply active_of_step h
  cases bootStep_inv h with
  | timerInit r hw ha hstarted hops hctrl =>
      rw [hctrl] at hb
      exact hi b hb
  | stutter he hstarted hops hop hctrl =>
      rw [hctrl] at hb
      exact hi b hb
  | @ctrl _ k he hstarted hop hops hctrl =>
      rcases asked_of_step (step_inv hctrl) hb with hasked | ⟨level, rfl⟩
      · exact hi b hasked
      · cases e with
        | ctrl k =>
            obtain rfl := Option.some.inj he
            exact hc
        | main m =>
            obtain ⟨st, -, hst⟩ := Option.bind_eq_some_iff.mp he
            cases st <;> simp [MainStmt.event] at hst
        | block | app => cases he

/-- What main needs to go on. -/
structure CanGoOn (r : InterfaceResults) (d : DclkInitResults) (s : Boot) : Prop where
  progress : Progress r d s
  sound : QueueSound s.ctrl
  callable : Callable s
  on : s.ctrl.off = false

theorem queueSound_startup (hi : QueueSound s.ctrl) (h : startup.step s e = some t) :
    QueueSound t.ctrl := by
  cases bootStep_inv h with
  | timerInit r hw ha hstarted hops hctrl =>
      rw [hctrl]
      exact ⟨hi.nodup, hi.running⟩
  | stutter he hstarted hops hop hctrl =>
      rw [hctrl]
      exact hi
  | ctrl he hstarted hop hops hctrl => exact queueSound_step hi (step_inv hctrl)

theorem startup_ctrl {k : Event} {c : State} (hallows : s.allows k = true)
    (h : controller.step s.ctrl k = some c) :
    ∃ t, startup.step s (.ctrl k) = some t ∧ t.ctrl = c ∧ t.todo = s.todo := by
  have hon := not_off_of_step h
  refine ⟨{ s.setCtrl c with ops := s.ops ++ (s.timerOp (.ctrl k)).toList }, ?_, rfl, rfl⟩
  simp only [startup, if_neg hon, Boot.exec, if_pos hallows, h, Option.map_some]

theorem startup_main {m : MainResults} {st : MainStmt} {rest : List MainStmt}
    (hon : s.ctrl.off = false) (hw : s.ctrl.worker = none) (htodo : s.todo = st :: rest)
    (h : { s with todo := rest, blocked := false }.execMain m st = some u) :
    ∃ t, startup.step s (.main m) = some t ∧ t.ctrl = u.ctrl ∧ t.todo = u.todo := by
  refine ⟨{ u with ops := s.ops ++ (s.timerOp (.main m)).toList }, ?_, rfl, rfl⟩
  simp only [startup, hon, Bool.false_eq_true, if_false, Boot.exec, hw, if_true, htodo, h,
    Option.map_some]

/-- The handler that runs can execute its next statement. -/
theorem stmt_goesOn {f : Frame} (hi : CanGoOn r d s) (hw : s.ctrl.worker = some f) :
    ∃ k t, startup.step s (.ctrl (.stmt k)) = some t ∧ t.todo = s.todo ∧ t.ctrl.off = false ∧
      ∀ g, t.ctrl.worker = some g → g.pc = f.pc + 1 := by
  obtain ⟨c, hc⟩ := hi.sound.stmt_enabled hi.on hw .success
  have hallows : s.allows (.stmt .success) = true := by
    simp only [Boot.allows]
    split
    · next b hn =>
        obtain ⟨f, hf, ha⟩ := exists_at_of_next hn
        cases ha with
        | callActive => exact hi.callable b (.inr (by rw [hf]; rfl))
    · rfl
  obtain ⟨f', hf', hnext⟩ := worker_stmt (step_inv hc)
  obtain rfl : f' = f := Option.some.inj (hf'.symm.trans hw)
  obtain ⟨t, ht, hctrl, htodo⟩ := startup_ctrl hallows hc
  have hwork : (Event.stmt .success).IsWork := trivial
  refine ⟨.success, t, ht, htodo, ?_, ?_⟩ <;> rw [hctrl]
  · exact (off_of_work hwork (step_inv hc)).trans hi.on
  · exact hnext

theorem execMain_frame {m : MainResults} {st : MainStmt} (h : s.execMain m st = some t) :
    t.todo.length ≤ s.todo.length ∧ t.ctrl.worker = s.ctrl.worker ∧ t.ctrl.off = s.ctrl.off := by
  cases st with
  | displayInit =>
      obtain ⟨hctrl, -, -, htodo | htodo⟩ := execMain_displayInit h
      · exact ⟨by rw [htodo], by rw [hctrl], by rw [hctrl]⟩
      · exact ⟨by simp [htodo], by rw [hctrl], by rw [hctrl]⟩
  | dclkInit =>
      simp only [Boot.execMain] at h
      split_ifs at h
      · obtain ⟨c, hc, rfl⟩ := Option.map_eq_some_iff.mp h
        cases step_inv hc
        exact ⟨le_rfl, rfl, rfl⟩
      · obtain rfl := Option.some.inj h
        exact ⟨Nat.zero_le _, rfl, rfl⟩
  | startSleepTimer =>
      obtain ⟨c, hc, rfl⟩ := Option.map_eq_some_iff.mp h
      cases step_inv hc
      exact ⟨le_rfl, rfl, rfl⟩
  | checkErr =>
      obtain rfl := Option.some.inj h
      split_ifs
      · exact ⟨le_rfl, rfl, rfl⟩
      · exact ⟨Nat.zero_le _, rfl, rfl⟩
  | pinConfigure | interruptConfigure | initCallback | addCallback | workInit | setActive
  | buzzerInit | powerManageInit =>
      obtain rfl := Option.some.inj h
      exact ⟨le_rfl, rfl, rfl⟩

/-- main can execute its next statement, whatever the call it makes returns. -/
theorem main_goesOn {st : MainStmt} {rest : List MainStmt} (hi : CanGoOn r d s)
    (hw : s.ctrl.worker = none) (htodo : s.todo = st :: rest) :
    ∃ m u, MainReturns r d s (.main m) ∧
      { s with todo := rest, blocked := false }.execMain m st = some u := by
  have hne : s.todo ≠ [] := by simp [htodo]
  have hon := hi.on
  cases st with
  | addCallback b =>
      exact ⟨⟨(r.button b).addCallback, .success⟩, _, by simp [MainReturns, htodo], rfl⟩
  | displayInit => exact ⟨⟨0, r.display⟩, _, by simp [MainReturns, htodo], rfl⟩
  | dclkInit =>
      have hready : s.ctrl.ready = false := by
        have hnot := mt (hi.progress.ready hne).mp (by simp [htodo])
        simpa using hnot
      have hstep : ∃ c, controller.step s.ctrl .dclkInit = some c :=
        ⟨_, by simp only [controller, hon, hw, hready]; rfl⟩
      obtain ⟨c, hc⟩ := hstep
      refine ⟨⟨(d.dclkInit s.ctrl.queue).2, .success⟩, ?_⟩
      by_cases hok : (d.dclkInit s.ctrl.queue).2 = 0
      · refine ⟨Boot.setCtrl c { s with todo := rest, blocked := false },
          by simp [MainReturns, htodo], ?_⟩
        exact (if_pos hok).trans (congrArg (Option.map _) hc)
      · refine ⟨{ s with todo := [], blocked := false }, by simp [MainReturns, htodo], ?_⟩
        exact if_neg hok
  | startSleepTimer =>
      have hno : MainStmt.dclkInit ∉ s.todo := by
        have hplaced := placed_of_suffix (htodo ▸ hi.progress.initializing.suffix)
        obtain rfl : rest = [] := hplaced
        simp [htodo]
      have hready : s.ctrl.ready = true := (hi.progress.ready hne).mpr hno
      have hstep : ∃ c, controller.step s.ctrl .arm = some c :=
        ⟨_, by simp only [controller, hon, hready, hi.progress.unarmed hne]; rfl⟩
      obtain ⟨c, hc⟩ := hstep
      exact ⟨.success, _, by simp [MainReturns, htodo], congrArg (Option.map _) hc⟩
  | pinConfigure | interruptConfigure | initCallback | workInit | setActive | checkErr
  | buzzerInit | powerManageInit =>
      exact ⟨.success, _, by simp [MainReturns, htodo], rfl⟩

/-- The steps main and the running handler have still to take, at most. -/
def Boot.left (s : Boot) : ℕ :=
  (s.ctrl.worker.elim 0 fun f => maxStmts - f.pc) + (maxStmts + 1) * s.todo.length

/-- Before the end of main, the running handler goes on, or main where there is none. -/
theorem step_goesOn (hi : CanGoOn r d s) (hne : s.todo ≠ []) :
    ∃ e t, (MainReturns r d s e ∧ FromSetUp s e) ∧ startup.step s e = some t ∧
      t.ctrl.off = false ∧ t.left < s.left := by
  cases hw : s.ctrl.worker with
  | none =>
      obtain ⟨st, rest, htodo⟩ := List.exists_cons_of_ne_nil hne
      obtain ⟨m, u, hreturns, hu⟩ := main_goesOn hi hw htodo
      obtain ⟨t, ht, hctrl, htodo'⟩ := startup_main hi.on hw htodo hu
      obtain ⟨hlen, hworker, hoff⟩ := execMain_frame hu
      have hless : u.todo.length ≤ rest.length := hlen
      have hnone : t.ctrl.worker = none := by
        rw [hctrl, hworker]
        exact hw
      refine ⟨.main m, t, ⟨hreturns, trivial⟩, ht, ?_, ?_⟩
      · rw [hctrl, hoff]
        exact hi.on
      · simp only [Boot.left, hnone, hw, htodo, htodo', Option.elim_none, List.length_cons,
          maxStmts]
        omega
  | some f =>
      obtain ⟨k, t, ht, htodo, hoff, hnext⟩ := stmt_goesOn hi hw
      have hlt := hi.sound.running f hw
      have hmax := length_program_le s.ctrl f.item
      refine ⟨.ctrl (.stmt k), t, ⟨trivial, trivial⟩, ht, hoff, ?_⟩
      simp only [Boot.left, hw, htodo, Option.elim_some]
      cases hg : t.ctrl.worker with
      | none =>
          simp only [Option.elim_none]
          omega
      | some g =>
          have hpc := hnext g hg
          simp only [Option.elim_some]
          omega

/-- From wherever main can go on it comes to its end. -/
theorem exists_end (hi : CanGoOn r d s) :
    ∃ more t, startup.run s more = some t ∧
      startup.Meets (fun s e => MainReturns r d s e ∧ FromSetUp s e) s more ∧ t.todo = [] := by
  have hstep : ∀ s, CanGoOn r d s → ¬ s.todo = [] → ∃ e t,
      (MainReturns r d s e ∧ FromSetUp s e) ∧ startup.step s e = some t ∧ CanGoOn r d t ∧
        t.left < s.left := by
    intro s hi hne
    obtain ⟨e, t, hc, ht, hoff, hless⟩ := step_goesOn hi hne
    exact ⟨e, t, hc, ht, ⟨progress_step hi.progress hc.1 ht, queueSound_startup hi.sound ht,
      callable_step hi.callable hc.2 ht, hoff⟩, hless⟩
  obtain ⟨more, t, hrun, hmeets, -, hend, -⟩ := Machine.exists_run_of_rank hstep hi
  exact ⟨more, t, hrun, hmeets, hend⟩

end GoesOn

/-- Once main has ended, it has armed sleep_timer and let advertise_DCLK be submitted exactly
if the callback of stop is added and every call of dclk_init succeeds; otherwise the
controller is not powered off before a countdown has expired. And main can always go on to
its end, if no edge came before the callback of its button was set. -/
theorem armed_iff_starts (r : InterfaceResults) (d : DclkInitResults)
    (bonds acceptList : List Addr) (es : List BootEvent) (s : Boot)
    (hrun : startup.run (.reset bonds acceptList) es = some s)
    (hc : startup.Meets (MainReturns r d) (.reset bonds acceptList) es) :
    (s.todo = [] → (s.ctrl.armed = true ↔ StartsUp r d) ∧ (s.ctrl.ready = true ↔ StartsUp r d)) ∧
      (s.ctrl.off = true → StartsUp r d ∨ .expired ∈ s.ctrl.hist) ∧
      (startup.Meets FromSetUp (.reset bonds acceptList) es → s.ctrl.off = false →
        ∃ more t, startup.run s more = some t ∧ startup.Meets (MainReturns r d) s more ∧
          t.todo = []) := by
  have hprogress : Progress r d s :=
    Machine.run_invariant (fun _ _ _ hi hc h => progress_step hi hc h) hrun hc
      (progress_reset r d bonds acceptList)
  have hcaused : SleepCaused s.ctrl :=
    Machine.run_invariant' (I := fun s => SleepCaused s.ctrl)
      (fun _ _ _ hi h => sleepCaused_startup hi h) hrun fun hsleep => by
        simp [Boot.reset, Boot.ctrl, boot, Clock.boot] at hsleep
  refine ⟨hprogress.ended, fun hoff => (hcaused (.inr hoff)).imp_left hprogress.startsUp,
    fun hsetup hon => ?_⟩
  have hsound : QueueSound s.ctrl :=
    Machine.run_invariant' (I := fun s => QueueSound s.ctrl)
      (fun _ _ _ hi h => queueSound_startup hi h) hrun (queueSound_boot bonds acceptList)
  have hcallable : Callable s :=
    Machine.run_invariant (fun _ _ _ hi hc h => callable_step hi hc h) hrun hsetup fun b hb => by
      simp [Boot.reset, Boot.ctrl, boot, State.Asked] at hb
  obtain ⟨more, t, hmore, hmeets, hend⟩ := exists_end ⟨hprogress, hsound, hcallable, hon⟩
  exact ⟨more, t, hmore, hmeets.imp fun _ _ h => h.1, hend⟩

/-- The settings cannot be loaded; a countdown ends, and the controller goes to sleep. -/
def unsettledBoot : List BootEvent :=
  List.replicate 27 (.main .success) ++ [.main ⟨-22, .success⟩, .app .success] ++
    (wholeEvent .start 1 5 ++ [Event.elapse 10000, .dExpire, .elapse 10000, .sleepExpire]).map .ctrl

/-- The handler of pair is in the way of main, which is setting up user. -/
def interruptedBoot : List BootEvent :=
  List.replicate 8 (.main .success) ++ [Event.edge .pair 1, .dequeue].map .ctrl

theorem armed_iff_starts_unsettled :
    (∃ s, startup.run (.reset [] []) unsettledBoot = some s ∧ s.ctrl.off = true ∧
      (s.todo = [] → (s.ctrl.armed = true ↔ StartsUp .success ⟨0, 0, -22⟩) ∧
        (s.ctrl.ready = true ↔ StartsUp .success ⟨0, 0, -22⟩)) ∧
      (s.ctrl.off = true → StartsUp .success ⟨0, 0, -22⟩ ∨ .expired ∈ s.ctrl.hist)) ∧
    ∃ s, startup.run (.reset [] []) interruptedBoot = some s ∧ s.ctrl.worker ≠ none ∧
      ∃ more t, startup.run s more = some t ∧ startup.Meets (MainReturns .success .success) s more ∧
        t.todo = [] := by
  constructor
  · obtain ⟨harmed, hoff, -⟩ := armed_iff_starts .success ⟨0, 0, -22⟩ [] [] unsettledBoot _ rfl
      (by decide +kernel)
    exact ⟨_, rfl, rfl, harmed, hoff⟩
  · obtain ⟨-, -, hend⟩ := armed_iff_starts .success .success [] [] interruptedBoot _ rfl
      (by decide +kernel)
    exact ⟨_, rfl, by decide, hend (by decide +kernel) rfl⟩

end DodgeClock
