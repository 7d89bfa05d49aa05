import DodgeClock.Boot

/-!
# What interface_init reports

The result codes of setup_button, buzzer_init and interface_init. interface_init keeps them
in one variable: the result for a button is overwritten by that for the next, and the
result of display_init is returned negated, so that a failure becomes zero. Of all the
calls that may fail, the one that adds the callback of stop is the only one main learns of.
-/
namespace DodgeClock
open EventSystem

/-- The operator `!`. -/
def cNot (v : ℤ) : ℤ := if v = 0 then 1 else 0

/-- Results of the calls setup_button makes. -/
structure SetupResults where
  deviceIsReady : Bool
  pinConfigure : ℤ
  interruptConfigure : ℤ
  addCallback : ℤ
  deriving DecidableEq, Repr

namespace SetupResults

def success : SetupResults := ⟨true, 0, 0, 0⟩

def Ok (r : SetupResults) : Prop :=
  r.deviceIsReady = true ∧ r.pinConfigure = 0 ∧ r.interruptConfigure = 0 ∧ r.addCallback = 0

instance (r : SetupResults) : Decidable r.Ok := inferInstanceAs (Decidable (_ ∧ _))

/-- The results in between are not assigned to anything. -/
def setupButton (r : SetupResults) : ℤ := Id.run do
  let mut err := cNot (if r.deviceIsReady then 1 else 0)
  err := |r.addCallback|
  return err

end SetupResults

def buzzerInit (pwmIsReady : Bool) : ℤ := if pwmIsReady = false then 0 else 0

/-- Results of the calls interface_init makes. -/
structure InterfaceResults where
  button : Button → SetupResults
  display : InitResults
  pwmIsReady : Bool

namespace InterfaceResults

def success : InterfaceResults := ⟨fun _ => .success, .success, true⟩

def Ok (r : InterfaceResults) : Prop :=
  (∀ b, (r.button b).Ok) ∧ r.display = .success ∧ r.pwmIsReady = true

def interfaceInit (r : InterfaceResults) (s : Screen) : Screen × ℤ := Id.run do
  let mut err := (r.button .pair).setupButton
  err := (r.button .user).setupButton
  err := (r.button .start).setupButton
  err := (r.button .stop).setupButton
  if err ≠ 0 then
    return (s, err)
  let (screen, display) := displayInit r.display s
  err := display
  if err ≠ 0 then
    return (screen, cNot err)
  err := buzzerInit r.pwmIsReady
  if err ≠ 0 then
    return (screen, cNot err)
  return (screen, 0)

end InterfaceResults

section
variable {r : InterfaceResults} {s : Screen}

theorem setupButton_eq (r : SetupResults) : r.setupButton = |r.addCallback| := rfl

theorem buzzerInit_eq (pwmIsReady : Bool) : buzzerInit pwmIsReady = 0 := by
  unfold buzzerInit
  split_ifs <;> rfl

theorem interfaceInit_eq (r : InterfaceResults) (s : Screen) : r.interfaceInit s =
    if (r.button .stop).addCallback ≠ 0 then (s, |(r.button .stop).addCallback|)
    else ((displayInit r.display s).1, 0) := by
  have hrun : r.interfaceInit s =
      if (r.button .stop).setupButton ≠ 0 then (s, (r.button .stop).setupButton)
      else if (displayInit r.display s).2 ≠ 0 then
        ((displayInit r.display s).1, cNot (displayInit r.display s).2)
      else if buzzerInit r.pwmIsReady ≠ 0 then
        ((displayInit r.display s).1, cNot (buzzerInit r.pwmIsReady))
      else ((displayInit r.display s).1, 0) := rfl
  rw [hrun, setupButton_eq, buzzerInit_eq]
  by_cases hstop : (r.button .stop).addCallback = 0
  · by_cases hdisplay : (displayInit r.display s).2 = 0
    · simp [hstop, hdisplay]
    · simp [hstop, hdisplay, cNot]
  · simp [hstop]

theorem interfaceInit_eq_zero :
    (r.interfaceInit s).2 = 0 ↔ (r.button .stop).addCallback = 0 := by
  rw [interfaceInit_eq]
  by_cases hstop : (r.button .stop).addCallback = 0
  · simp [hstop]
  · simp [hstop]

end

section Main
variable {r : InterfaceResults} {s t : Boot}

/-- The calls main makes in interface_init have the results `r`. -/
def Returns (r : InterfaceResults) (s : Boot) : BootEvent → Prop
  | .main m => match s.todo.head? with
      | some (.addCallback b) => m.call = (r.button b).addCallback
      | some .displayInit => m.display = r.display
      | _ => True
  | _ => True

theorem armed_of_step {c c' : State} {e : Event} (h : Step c e c') (he : e ≠ .arm) :
    c'.armed = c.armed := by
  cases h
  case arm hr ha => exact absurd rfl he
  all_goals rfl

theorem ready_eq_of_step {c c' : State} {e : Event} (h : Step c e c') (he : e ≠ .dclkInit) :
    c'.ready = c.ready := by
  cases h
  case dclkInit hw hr => exact absurd rfl he
  all_goals rfl

/-- What a step leaves alone if it is not one of main. -/
structure KeepsMain (s t : Boot) : Prop where
  todo : t.todo = s.todo
  err : t.err = s.err
  setup : t.setup = s.setup
  armed : t.ctrl.armed = s.ctrl.armed
  ready : t.ctrl.ready = s.ctrl.ready

/-- A step of main that leads from `s` to `t` executes `st` with the results `m`. -/
structure RunsMain (s t : Boot) (m : MainResults) (st : MainStmt) (rest : List MainStmt)
    (u : Boot) : Prop where
  todo : s.todo = st :: rest
  exec : { s with todo := rest, blocked := false }.execMain m st = some u
  todo_eq : t.todo = u.todo
  err_eq : t.err = u.err
  setup_eq : t.setup = u.setup
  ctrl_eq : t.ctrl = u.ctrl

/-- What main has reached is changed by main alone. -/
theorem main_of_step {e : BootEvent} (h : startup.step s e = some t) :
    KeepsMain s t ∨ ∃ m st rest u, e = .main m ∧ RunsMain s t m st rest u := by
  simp only [startup, Option.ite_none_left_eq_some, Option.map_eq_some_iff] at h
  obtain ⟨-, u, hu, rfl⟩ := h
  cases e with
  | block =>
      obtain ⟨-, hu⟩ := Option.ite_none_right_eq_some.mp hu
      obtain rfl := Option.some.inj hu
      exact .inl ⟨rfl, rfl, rfl, rfl, rfl⟩
  | main m =>
      obtain ⟨-, hu⟩ := Option.ite_none_right_eq_some.mp hu
      cases htodo : s.todo with
      | nil => simp [htodo] at hu
      | cons st rest =>
          simp only [htodo] at hu
          exact .inr ⟨m, st, rest, u, rfl, htodo, hu, rfl, rfl, rfl, rfl⟩
  | app d =>
      obtain ⟨-, hu⟩ := Option.ite_none_right_eq_some.mp hu
      obtain rfl := Option.some.inj hu
      left
      simp only [Boot.execApp]
      split_ifs
      · exact ⟨rfl, rfl, rfl, by simp [Boot.ctrl], by simp [Boot.ctrl]⟩
      · exact ⟨rfl, rfl, rfl, rfl, rfl⟩
  | ctrl k =>
      obtain ⟨hallows, hu⟩ := Option.ite_none_right_eq_some.mp hu
      obtain ⟨c, hc, rfl⟩ := Option.map_eq_some_iff.mp hu
      left
      refine ⟨rfl, rfl, rfl, armed_of_step (step_inv hc) ?_, ready_eq_of_step (step_inv hc) ?_⟩ <;>
        rintro rfl <;> simp [Boot.allows] at hallows

/-- The callback of stop is added last, and looked at before display_init. -/
def Ordered : List MainStmt → Prop
  | .addCallback b :: rest => .checkErr ∈ rest ∧ (b ≠ .stop → .addCallback .stop ∈ rest)
  | .displayInit :: rest => .checkErr ∉ rest ∧ .addCallback .stop ∉ rest
  | _ => True

instance Ordered.decidable : (l : List MainStmt) → Decidable (Ordered l)
  | .addCallback _ :: _ | .displayInit :: _ => inferInstanceAs (Decidable (_ ∧ _))
  | [] | .pinConfigure _ :: _ | .interruptConfigure _ :: _ | .initCallback _ :: _
  | .workInit _ :: _ | .setActive _ :: _ | .checkErr :: _ | .buzzerInit :: _ | .dclkInit :: _
  | .powerManageInit :: _ | .startSleepTimer :: _ => .isTrue trivial

theorem ordered_of_suffix {l : List MainStmt} (h : l <:+ mainProgram) : Ordered l := by
  have htails : ∀ l ∈ mainProgram.tails, Ordered l := by decide
  exact htails l ((List.mem_tails _ _).mpr h)

/-- What main has found so far: the variable holds the last result for a button, until it
is found to be zero. -/
structure Initializing (r : InterfaceResults) (s : Boot) : Prop where
  suffix : s.todo <:+ mainProgram
  kept : s.todo ≠ [] → .addCallback .stop ∉ s.todo → s.err = |(r.button .stop).addCallback|
  checked : s.todo ≠ [] → .checkErr ∉ s.todo → s.err = 0

theorem Initializing.nil (h : s.todo = []) : Initializing r s :=
  ⟨h ▸ List.nil_suffix, fun hne => absurd h hne, fun hne => absurd h hne⟩

/-- The statements that neither end main nor set the variable. -/
theorem Initializing.cons {st : MainStmt} {rest : List MainStmt} (hi : Initializing r s)
    (htodo : s.todo = st :: rest) (hadd : st ≠ .addCallback .stop) (hcheck : st ≠ .checkErr)
    (htodo' : t.todo = rest) (herr : t.err = s.err) : Initializing r t := by
  obtain ⟨hsuffix, hkept, hchecked⟩ := hi
  rw [htodo] at hsuffix hkept hchecked
  refine ⟨htodo' ▸ (List.suffix_cons st rest).trans hsuffix, fun _ hno => ?_, fun _ hno => ?_⟩ <;>
    rw [htodo'] at hno <;> rw [herr]
  · exact hkept (List.cons_ne_nil _ _) (List.not_mem_cons_of_ne_of_not_mem hadd.symm hno)
  · exact hchecked (List.cons_ne_nil _ _) (List.not_mem_cons_of_ne_of_not_mem hcheck.symm hno)

/-- After a failure of display_init, buzzer_init is left out. -/
theorem execMain_displayInit {m : MainResults} (h : s.execMain m .displayInit = some t) :
    t.ctrl = s.ctrl ∧ t.err = s.err ∧ t.setup = s.setup ∧
      (t.todo = s.todo ∨ t.todo = s.todo.tail) := by
  simp only [Boot.execMain, Option.some.injEq] at h
  by_cases hok : (displayInit m.display s.console.screen).2 = 0
  · rw [if_pos hok] at h
    subst h
    exact ⟨rfl, rfl, rfl, .inl rfl⟩
  · rw [if_neg hok] at h
    subst h
    exact ⟨rfl, rfl, rfl, .inr rfl⟩

theorem initializing_step {e : BootEvent} (hi : Initializing r s) (hc : Returns r s e)
    (h : startup.step s e = some t) : Initializing r t := by
  rcases main_of_step h with hkeeps | ⟨m, st, rest, u, rfl, htodo, hu, htodo', herr, -, -⟩
  · refine ⟨?_, ?_, ?_⟩ <;> rw [hkeeps.todo]
    · exact hi.suffix
    · rw [hkeeps.err]
      exact hi.kept
    · rw [hkeeps.err]
      exact hi.checked
  · have hrest : rest <:+ mainProgram := (List.suffix_cons st rest).trans (htodo ▸ hi.suffix)
    have hordered : Ordered (st :: rest) := ordered_of_suffix (htodo ▸ hi.suffix)
    cases st with
    | addCallback b =>
        obtain rfl := Option.some.inj hu
        have hcall : m.call = (r.button b).addCallback := by simpa [Returns, htodo] using hc
        refine ⟨htodo' ▸ hrest, fun _ hno => ?_, fun _ hno => ?_⟩ <;> rw [htodo'] at hno
        · have hb : b = .stop := by
            by_contra hne
            exact hno (hordered.2 hne)
          rw [herr, ← hb, ← hcall]
        · exact absurd hordered.1 hno
    | checkErr =>
        obtain rfl := Option.some.inj hu
        by_cases h0 : s.err = 0
        · simp only [if_pos h0] at htodo' herr
          refine ⟨htodo' ▸ hrest, fun _ hno => ?_, fun _ _ => herr.trans h0⟩
          rw [herr]
          apply hi.kept
          · simp [htodo]
          · rw [htodo]
            exact List.not_mem_cons_of_ne_of_not_mem (by decide) (htodo' ▸ hno)
        · exact .nil (by simpa [h0] using htodo')
    | displayInit =>
        obtain ⟨-, herr', -, hgoes⟩ := execMain_displayInit hu
        have hsuffix : u.todo <:+ rest := by
          rcases hgoes with hgoes | hgoes
          · exact hgoes ▸ List.suffix_rfl
          · exact hgoes ▸ List.tail_suffix rest
        obtain ⟨hcheck, hadd⟩ := hordered
        have hne : s.todo ≠ [] := by simp [htodo]
        refine ⟨htodo' ▸ hsuffix.trans hrest, fun _ _ => ?_, fun _ _ => ?_⟩ <;> rw [herr, herr']
        · exact hi.kept hne (by simpa [htodo] using hadd)
        · exact hi.checked hne (by simpa [htodo] using hcheck)
    | dclkInit =>
        simp only [Boot.execMain] at hu
        split_ifs at hu with hcall
        · obtain ⟨c, -, rfl⟩ := Option.map_eq_some_iff.mp hu
          exact hi.cons htodo (by simp) (by simp) htodo' herr
        · obtain rfl := Option.some.inj hu
          exact .nil htodo'
    | startSleepTimer =>
        obtain ⟨c, -, rfl⟩ := Option.map_eq_some_iff.mp hu
        exact hi.cons htodo (by simp) (by simp) htodo' herr
    | pinConfigure | interruptConfigure | initCallback | workInit | setActive | buzzerInit
    | powerManageInit =>
        obtain rfl := Option.some.inj hu
        exact hi.cons htodo (by simp) (by simp) htodo' herr

theorem initializing_of_run {bonds acceptList : List Addr} {es : List BootEvent}
    (hrun : startup.run (.reset bonds acceptList) es = some s)
    (hc : startup.Meets (Returns r) (.reset bonds acceptList) es) : Initializing r s := by
  have hadd : MainStmt.addCallback .stop ∈ mainProgram := by decide
  have hcheck : MainStmt.checkErr ∈ mainProgram := by decide
  have hreset : Initializing r (.reset bonds acceptList) :=
    ⟨List.suffix_rfl, fun _ hno => absurd hadd hno, fun _ hno => absurd hcheck hno⟩
  exact Machine.run_invariant (fun _ _ _ hi hc h => initializing_step hi hc h) hrun hc hreset

/-- main goes on to dclk_init where interface_init returns 0. -/
theorem interfaceInit_of_dclkInit (hi : Initializing r s) (h : s.todo.head? = some .dclkInit)
    (screen : Screen) : (r.interfaceInit screen).2 = 0 := by
  have htodo : s.todo = [.dclkInit, .powerManageInit, .startSleepTimer] := by
    have htails : ∀ l ∈ mainProgram.tails, l.head? = some .dclkInit →
        l = [.dclkInit, .powerManageInit, .startSleepTimer] := by decide
    exact htails _ ((List.mem_tails _ _).mpr hi.suffix) h
  have hne : s.todo ≠ [] := by simp [htodo]
  have hkept := hi.kept hne (by rw [htodo]; decide)
  have hchecked := hi.checked hne (by rw [htodo]; decide)
  rw [interfaceInit_eq_zero, ← abs_eq_zero, ← hkept, hchecked]

end Main

/-- interface_init returns 0 exactly if all calls succeed, so main goes on to dclk_init only
then. -/
structure ReportsFailures (r : InterfaceResults) : Prop where
  reports : ∀ s, (r.interfaceInit s).2 = 0 ↔ r.Ok
  goesOn : ∀ (bonds acceptList : List Addr) (es : List BootEvent) (s : Boot),
    startup.run (.reset bonds acceptList) es = some s →
      startup.Meets (Returns r) (.reset bonds acceptList) es →
        s.todo.head? = some .dclkInit → r.Ok

/-- That is so exactly if nothing fails, or the callback of stop cannot be added. -/
theorem reportsFailures_iff (r : InterfaceResults) :
    ReportsFailures r ↔ r.Ok ∨ (r.button .stop).addCallback ≠ 0 := by
  have hok : r.Ok → (r.button .stop).addCallback = 0 := fun h => (h.1 .stop).2.2.2
  constructor
  · intro h
    by_cases hstop : (r.button .stop).addCallback = 0
    · exact .inl ((h.reports .boot).mp (interfaceInit_eq_zero.mpr hstop))
    · exact .inr hstop
  · intro h
    have hreports : ∀ s, (r.interfaceInit s).2 = 0 ↔ r.Ok := by
      intro s
      rw [interfaceInit_eq_zero]
      exact ⟨fun hstop => h.resolve_right (not_not.mpr hstop), hok⟩
    refine ⟨hreports, fun bonds acceptList es s hrun hc hhead => ?_⟩
    exact (hreports .boot).mp (interfaceInit_of_dclkInit (initializing_of_run hrun hc) hhead .boot)

/-- The font of the display is missing, and 0 is returned. -/
theorem not_reportsFailures : ¬ ∀ r : InterfaceResults, ReportsFailures r := by
  intro h
  have hok := ((h { InterfaceResults.success with display.setFont := -22 }).reports .boot).mp rfl
  exact absurd hok.2.1 (by decide)

end DodgeClock
