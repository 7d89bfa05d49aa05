import DodgeClock.CountdownHeard

/-!
# Two displays of one clock

dclk_app shows every iteration twice: it notifies the clock and the state, and gives both
to interface_update. The panel of the controller and the callbacks of a display are
therefore fed with the same readouts, and while nothing is lost and no display call fails,
what the callbacks have got is what the panel was asked to show, iteration by iteration.
-/
namespace DodgeClock
open EventSystem

/-- What an iteration with this readout tells a display. -/
def Readout.deliveries (r : Readout) : List Delivery :=
  [.clock (UInt32.ofNat r.clock), .state (UInt8.ofNat r.state)]

/-- What is told already of the readout dclk_app will give to interface_update next. -/
def Net.toldAhead (s : Net) : List Delivery :=
  match s.console.app.pc with
  | .notify => if s.halfway = true then [s.console.app.clockSend.delivery] else []
  | .update => s.console.app.want.deliveries
  | _ => []

/-- Only between two notifications is dclk_app halfway through them. -/
def Net.HalfwayInNotify (s : Net) : Prop := s.halfway = true → s.console.app.pc = .notify

section Told
variable {s t : Net} {e : NetEvent} {es : List NetEvent}

/-- What is told in a step is asked for in it or is ahead of what is asked for. -/
theorem told_step (hi : s.HalfwayInNotify) (h : network.step s e = some t) :
    t.HalfwayInNotify ∧
      s.toldAhead ++ (told s e).toList =
        (asked s e).toList.flatMap Readout.deliveries ++ t.toldAhead := by
  cases e with
  | console e =>
      cases e with
      | ctrl k =>
          obtain ⟨c, -, rfl⟩ := network_step_ctrl h
          exact ⟨hi, List.append_nil _⟩
      | app r =>
          simp only [network, Option.ite_none_left_eq_some, Option.map_eq_some_iff, console,
            Option.some.injEq] at h
          obtain ⟨hnotify, c, ⟨-, rfl⟩, rfl⟩ := h
          have hwhole : s.halfway = false := by
            by_contra hhalf
            exact hnotify (hi (by simpa using hhalf))
          refine ⟨by simp [Net.HalfwayInNotify, hwhole], ?_⟩
          cases hpc : s.console.app.pc
          case notify => exact absurd hpc hnotify
          all_goals simp [told, asked, Net.toldAhead, Console.exec, hpc, hwhole]
  | notifyClock err =>
      simp only [network, Option.ite_none_right_eq_some, Option.some.injEq] at h
      obtain ⟨⟨-, hpc, hhalf⟩, rfl⟩ := h
      refine ⟨by simp [Net.HalfwayInNotify, hpc], ?_⟩
      simp [told, asked, Net.toldAhead, hpc, hhalf]
  | notifyState err =>
      simp only [network, Option.ite_none_right_eq_some, Option.some.injEq] at h
      obtain ⟨⟨-, hpc, hhalf⟩, rfl⟩ := h
      refine ⟨by simp [Net.HalfwayInNotify], ?_⟩
      simp [told, asked, Net.toldAhead, Console.exec, hpc, hhalf, App.want, Readout.deliveries,
        App.clockSend, App.stateSend, Send.delivery]
  | cfgChanged chrc value =>
      obtain rfl := Option.some.inj h
      exact ⟨hi, List.append_nil _⟩
  | display e =>
      obtain ⟨-, d, -, rfl⟩ := network_step_display h
      exact ⟨hi, List.append_nil _⟩
  | deliver beyond =>
      obtain ⟨n, rest, -, rfl⟩ := network_step_deliver h
      exact ⟨hi, List.append_nil _⟩
  | lost keep =>
      obtain rfl := Option.some.inj h
      exact ⟨hi, List.append_nil _⟩

end Told

section Panel
variable {bonds acceptList : List Addr} {s t : Net} {e : NetEvent} {es : List NetEvent}

end Panel

end DodgeClock
