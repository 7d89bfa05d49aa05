import DodgeClock.ClockCharacteristic
import DodgeClock.ClockRead

/-!
# Reading while the clock goes on

A client may read a characteristic in parts, and anything may happen between two of its
requests: read_state and read_clock ask their callbacks for a new value each time. They
hand out one byte, so what a client has is always of one moment, that of its first
request. For the state that byte is all there is to know.
-/
namespace DodgeClock
open EventSystem LittleEndian BlobRead

/-- DCKL_state_cb. -/
def dcklStateCb (c : Clock) : ℕ := c.clockState

/-- read_state, with the variable `state` and the memory behind it. -/
def DclkService.readState (attrRead : AttrRead) (stateCb : Option UInt8) (beyond : ℕ → UInt8)
    (len offset : ℕ) (state : UInt8) : Except ℤ (List UInt8) × UInt8 :=
  match stateCb with
  | some v => (attrRead (place (bytes 1 v.toNat) beyond) sizeofValue len offset, v)
  | none => (.ok [], state)

/-- The controller, the variables `state` and `clock` of DCLK.c, and what a client has got
so far. -/
structure Reader where
  ctrl : State
  state : UInt8
  clock : UInt32
  got : List UInt8

def Reader.boot (bonds acceptList : List Addr) : Reader :=
  ⟨DodgeClock.boot bonds acceptList, 0, 0, []⟩

/-- `request` asks for `len` bytes from where the last answer ended. -/
inductive ReadEvent where
  | ctrl (e : Event)
  | request (len : ℕ)
  deriving DecidableEq, Repr

section Reader
variable (attrRead : AttrRead) (beyond : ℕ → UInt8) (chrc : Chrc)

/-- The answer to a request, from the callbacks of main.c. -/
def Reader.read (len : ℕ) (s : Reader) : Except ℤ (List UInt8) × Reader :=
  match chrc with
  | .state =>
      let answer := DclkService.readState attrRead (some (UInt8.ofNat (dcklStateCb s.ctrl.clock)))
        beyond len s.got.length s.state
      (answer.1, { s with state := answer.2 })
  | .clock =>
      let answer := DclkService.readClock attrRead (some (UInt32.ofNat (dclkClockCb s.ctrl.clock)))
        beyond len s.got.length s.clock
      (answer.1, { s with clock := answer.2 })

def reader : Machine Reader ReadEvent where
  step
    | s, .ctrl e => (controller.step s.ctrl e).map fun c => { s with ctrl := c }
    | s, .request len =>
        if s.ctrl.off = true then none
        else match s.read attrRead beyond chrc len with
          | (.ok part, t) => some { t with got := s.got ++ part }
          | (.error _, _) => none

/-- What the callback of the characteristic returns. -/
def Reader.value (s : Reader) : ℕ :=
  match chrc with
  | .state => dcklStateCb s.ctrl.clock
  | .clock => dclkClockCb s.ctrl.clock

variable {attrRead} (hcopies : attrRead.Copies) {s t : Reader} {len : ℕ}

include hcopies in
theorem readState_eq (v : UInt8) {offset : ℕ} (h : offset ≤ 1) (state : UInt8) :
    (DclkService.readState attrRead (some v) beyond len offset state).1 =
      .ok (serve [v] len offset) := by
  have hbyte : (List.range sizeofValue).map (place (bytes 1 v.toNat) beyond) = [v] := by
    simp [sizeofValue, place, bytes]
  rw [← hbyte]
  exact hcopies.eq_serve h len

include hcopies in
/-- A request is answered from the low byte of the value at that moment. -/
theorem read_eq (len : ℕ) (h : s.got.length ≤ 1) : (s.read attrRead beyond chrc len).1 =
    .ok (serve [UInt8.ofNat (s.value chrc)] len s.got.length) := by
  cases chrc with
  | state => exact readState_eq beyond hcopies _ h s.state
  | clock =>
      have hserves := serves_readClock hcopies (UInt32.ofNat (dclkClockCb s.ctrl.clock)) beyond
        len s.got.length s.clock h
      have hlow : UInt8.ofNat (UInt32.ofNat (dclkClockCb s.ctrl.clock)).toNat =
          UInt8.ofNat (dclkClockCb s.ctrl.clock) := by
        rw [← UInt8.toNat_inj]
        simp
      rw [hlow] at hserves
      exact hserves

theorem read_frame (attrRead : AttrRead) (len : ℕ) (s : Reader) :
    (s.read attrRead beyond chrc len).2.ctrl = s.ctrl ∧
      (s.read attrRead beyond chrc len).2.got = s.got := by
  cases chrc <;> exact ⟨rfl, rfl⟩

include hcopies in
/-- A request of a client that has a byte at most is answered, and with one if it had none
and asks for it. -/
theorem request_step (hoff : s.ctrl.off = false) (h : s.got.length ≤ 1) (len : ℕ) :
    ∃ t, (reader attrRead beyond chrc).step s (.request len) = some t ∧ t.ctrl = s.ctrl ∧
      t.got = s.got ++ serve [UInt8.ofNat (s.value chrc)] len s.got.length := by
  have hread := read_eq beyond chrc hcopies len h
  obtain ⟨hctrl, -⟩ := read_frame beyond chrc attrRead len s
  refine ⟨{ (s.read attrRead beyond chrc len).2 with
    got := s.got ++ serve [UInt8.ofNat (s.value chrc)] len s.got.length }, ?_, hctrl, rfl⟩
  simp only [reader, hoff, Bool.false_eq_true, if_false]
  rw [← Prod.eta (s.read attrRead beyond chrc len), hread]

variable {beyond chrc}

theorem off_of_reader {e : ReadEvent} (h : (reader attrRead beyond chrc).step s e = some t) :
    s.ctrl.off = false := by
  cases e with
  | ctrl e =>
      obtain ⟨c, hc, -⟩ := Option.map_eq_some_iff.mp h
      simpa using not_off_of_step hc
  | request len =>
      by_contra hoff
      simp [reader, hoff] at h

include hcopies in
/-- What a client has once it has a byte, it keeps, and nothing comes to it. -/
theorem got_step {b : UInt8} {e : ReadEvent} (hi : s.got = [b])
    (h : (reader attrRead beyond chrc).step s e = some t) : t.got = [b] := by
  have hoff := off_of_reader h
  cases e with
  | ctrl e =>
      obtain ⟨c, -, rfl⟩ := Option.map_eq_some_iff.mp h
      exact hi
  | request len =>
      have hlen : s.got.length ≤ 1 := by simp [hi]
      obtain ⟨u, hu, -, hgot⟩ := request_step beyond chrc hcopies hoff hlen len
      obtain rfl := Option.some.inj (hu.symm.trans h)
      simp [hgot, hi, serve]

theorem clockSound_reader {bonds acceptList : List Addr} {es : List ReadEvent}
    (hrun : (reader attrRead beyond chrc).run (.boot bonds acceptList) es = some s) :
    ClockSound s.ctrl := by
  refine Machine.run_invariant' (I := fun s : Reader => ClockSound s.ctrl) (fun u e v hi h => ?_)
    hrun (clockSound_boot bonds acceptList)
  cases e with
  | ctrl e =>
      obtain ⟨c, hc, rfl⟩ := Option.map_eq_some_iff.mp h
      exact clockSound_step hi (step_inv hc)
  | request len =>
      simp only [reader, Option.ite_none_left_eq_some] at h
      obtain ⟨-, h⟩ := h
      split at h
      · next part m hm =>
          obtain rfl := Option.some.inj h
          obtain ⟨hctrl, -⟩ := read_frame beyond chrc attrRead len u
          rw [hm] at hctrl
          show ClockSound m.ctrl
          rw [hctrl]
          exact hi
      · cases h

end Reader

/-- In every run of the controller and a client that reads in parts, while the controller
is on, the first request is answered with the low byte of the value at that moment, which
for the state is the state. In every continuation that byte stays all the client has, and
each further request is answered, with nothing. -/
theorem got_of_first_request (attrRead : AttrRead) (hcopies : attrRead.Copies)
    (bonds acceptList : List Addr) (beyond : ℕ → UInt8) (chrc : Chrc) (before : List ReadEvent)
    (len : ℕ) (s : Reader) (hlen : 1 ≤ len)
    (hbefore : (reader attrRead beyond chrc).run (.boot bonds acceptList) before = some s)
    (hon : s.ctrl.off = false) (hnone : s.got = []) :
    ∃ m, (reader attrRead beyond chrc).step s (.request len) = some m ∧
      ∀ after t, (reader attrRead beyond chrc).run m after = some t →
        t.got = [UInt8.ofNat (s.value chrc)] ∧
          (chrc = .state → t.got.map UInt8.toNat = [s.ctrl.clock.clockState]) ∧
          (t.ctrl.off = false → ∀ more, ∃ u,
            (reader attrRead beyond chrc).step t (.request more) = some u ∧ u.got = t.got) := by
  obtain ⟨m, hfirst, -, hm⟩ :=
    request_step beyond chrc hcopies hon (by simp [hnone]) len
  have hbyte : m.got = [UInt8.ofNat (s.value chrc)] := by
    obtain ⟨n, rfl⟩ := Nat.exists_eq_add_of_le' hlen
    simp [hm, hnone, serve]
  refine ⟨m, hfirst, fun after t hafter => ?_⟩
  have hgot : t.got = [UInt8.ofNat (s.value chrc)] :=
    Machine.run_invariant' (I := fun r : Reader => r.got = [UInt8.ofNat (s.value chrc)])
      (fun _ _ _ hi h => got_step hcopies hi h) hafter hbyte
  refine ⟨hgot, ?_, fun hoff more => ?_⟩
  · rintro rfl
    have hrange := (clockSound_reader hbefore).range
    have hfits : s.ctrl.clock.clockState % 256 = s.ctrl.clock.clockState := by omega
    simp [hgot, Reader.value, dcklStateCb, hfits]
  · obtain ⟨u, hu, -, hmore⟩ := request_step beyond chrc hcopies hoff (by simp [hgot]) more
    exact ⟨u, hu, by simp [hmore, hgot, serve]⟩

/-- The clock has been running for 300 ms. -/
def readWhileRunning : List ReadEvent :=
  (wholeEvent .start 1 5 ++ [Event.elapse 300]).map .ctrl

/-- The clock is stopped between two requests of one byte each. -/
def stoppedMeanwhile : List ReadEvent :=
  (wholeEvent .stop 1 5).map .ctrl ++ [.request 1]

/-- The client has `b` in the end, though the clock is stopped by then. -/
def HasInTheEnd (chrc : Chrc) (b : UInt8) : Prop :=
  ∃ s m t, (reader btGattAttrRead (fun _ => 0) chrc).run (.boot [] []) readWhileRunning = some s ∧
    (reader btGattAttrRead (fun _ => 0) chrc).step s (.request 1) = some m ∧
    (reader btGattAttrRead (fun _ => 0) chrc).run m stoppedMeanwhile = some t ∧
    t.got = [b] ∧ t.ctrl.clock.clockState = 1

/-- The state was 0, and 228 is the low byte of the 9700 ms that were left. -/
theorem got_of_first_request_stopped : HasInTheEnd .state 0 ∧ HasInTheEnd .clock 228 := by
  constructor
  · obtain ⟨m, hm, hget⟩ := got_of_first_request btGattAttrRead copies_btGattAttrRead [] []
      (fun _ => 0) .state readWhileRunning 1 _ le_rfl rfl rfl rfl
    obtain rfl := Option.some.inj hm
    exact ⟨_, _, _, rfl, rfl, rfl, (hget stoppedMeanwhile _ rfl).1, by decide⟩
  · obtain ⟨m, hm, hget⟩ := got_of_first_request btGattAttrRead copies_btGattAttrRead [] []
      (fun _ => 0) .clock readWhileRunning 1 _ le_rfl rfl rfl rfl
    obtain rfl := Option.some.inj hm
    exact ⟨_, _, _, rfl, rfl, rfl, (hget stoppedMeanwhile _ rfl).1, by decide⟩

end DodgeClock
