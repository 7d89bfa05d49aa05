import DodgeClock.EventSystem
import DodgeClock.CText

/-!
# The screen of the controller

display_init and interface_update of Interface.c, on a character framebuffer and a
panel that shows what was last finalized. The values interface_update remembers, to
skip a redraw that changes nothing, are stored before the drawing is tried: after a
failure they describe a frame the panel never got, and no later call with the same
values draws it.
-/
namespace DodgeClock
open EventSystem CText

/-- The values behind the three pointers given to interface_update. -/
structure Readout where
  clock : ℕ
  state : ℕ
  status : Char
  deriving DecidableEq, Repr

/-- The initializers of dis_clock, dis_state and dis_conn_status. -/
def Readout.initial : Readout := ⟨0, 2, nul⟩

/-- The text sprintf writes to `str`. -/
def Readout.text (r : Readout) : List Char :=
  if 10 = r.clock then ['T', ':', '-', ' ', 'S'] ++ decimal r.state ++ [' ', r.status]
  else ['T', ':'] ++ decimal r.clock ++ [' ', 'S'] ++ decimal r.state ++ [' ', r.status]

/-- `dis` is dis_clock, dis_state and dis_conn_status; `frame` is the framebuffer and
`panel` the display. The last field only records the run: what was last written to the
panel by interface_update. -/
structure Screen where
  dis : Readout
  frame : List Char
  panel : List Char
  written : Option Readout
  deriving DecidableEq, Repr

namespace Screen

/-- cfb_print at the origin replaces as many cells as the text has before its end. -/
def cfbPrint (text : List Char) (s : Screen) : Screen :=
  { s with frame := untilNul text ++ s.frame.drop (untilNul text).length }

def cfbFinalize (s : Screen) : Screen := { s with panel := s.frame }

end Screen

/-- Results of the calls display_init makes, in call order. -/
structure InitResults where
  framebufferInit : ℤ
  setFont : ℤ
  print : ℤ
  invert : ℤ
  finalize : ℤ
  clear : ℤ
  deriving DecidableEq, Repr

def InitResults.success : InitResults := ⟨0, 0, 0, 0, 0, 0⟩

/-- display_init. The colours that cfb_framebuffer_invert exchanges are left out. -/
def displayInit (r : InitResults) (s : Screen) : Screen × ℤ :=
  if r.framebufferInit ≠ 0 then (s, r.framebufferInit)
  else
    let s := { s with frame := [] }
    if r.setFont ≠ 0 then (s, r.setFont)
    else if r.print ≠ 0 then (s, r.print)
    else
      let s := s.cfbPrint ['D', 'C', 'L', 'K', ' ', 'S', 't', 'a', 'r', 't']
      if r.invert ≠ 0 then (s, r.invert)
      else if r.finalize ≠ 0 then (s, r.finalize)
      else
        let s := s.cfbFinalize
        if r.clear ≠ 0 then (s, r.clear) else ({ s with frame := [], panel := [] }, r.clear)

/-- Static initialization, and a display_init in which no call fails. -/
def Screen.boot : Screen := (displayInit .success ⟨.initial, [], [], none⟩).1

/-- Results of the two calls interface_update makes. -/
structure DrawResults where
  print : ℤ
  finalize : ℤ
  deriving DecidableEq, Repr

def DrawResults.success : DrawResults := ⟨0, 0⟩

def DrawResults.Ok (r : DrawResults) : Prop := r.print = 0 ∧ r.finalize = 0

instance (r : DrawResults) : Decidable r.Ok := inferInstanceAs (Decidable (_ ∧ _))

/-- What a call of interface_update does: `text` is what it formats, if it draws, and
`buzzed` whether it calls buzz. -/
structure Update where
  screen : Screen
  err : ℤ
  text : Option (List Char)
  buzzed : Bool
  deriving DecidableEq, Repr

def interfaceUpdate (r : DrawResults) (want : Readout) (s : Screen) : Update :=
  if s.dis = want then ⟨s, -1, none, false⟩
  else
    let s := { s with dis := want }
    let str := s.dis.text
    if r.print ≠ 0 then ⟨s, r.print, some str, false⟩
    else
      let s := s.cfbPrint str
      if r.finalize ≠ 0 then ⟨s, r.finalize, some str, false⟩
      else ⟨{ s.cfbFinalize with written := some s.dis }, 0, some str, decide (s.dis.clock < 3)⟩

section Update
variable {r : DrawResults} {want : Readout} {s : Screen}

theorem interfaceUpdate_skip (h : s.dis = want) :
    interfaceUpdate r want s = ⟨s, -1, none, false⟩ := if_pos h

theorem interfaceUpdate_draw (h : s.dis ≠ want) (hr : r.Ok) :
    interfaceUpdate r want s =
      ⟨⟨want, untilNul want.text ++ s.frame.drop (untilNul want.text).length,
        untilNul want.text ++ s.frame.drop (untilNul want.text).length, some want⟩, 0,
        some want.text, decide (want.clock < 3)⟩ := by
  rw [interfaceUpdate, if_neg h, if_neg (not_not.mpr hr.1), if_neg (not_not.mpr hr.2)]
  rfl

@[simp] theorem interfaceUpdate_dis : (interfaceUpdate r want s).screen.dis = want := by
  unfold interfaceUpdate
  split_ifs with h <;> first | exact h | rfl

theorem interfaceUpdate_text : (interfaceUpdate r want s).text =
    if s.dis = want then none else some want.text := by
  unfold interfaceUpdate
  split_ifs <;> rfl

/-- A failed draw returns the error of the failed call, and has written nothing. -/
theorem interfaceUpdate_fail (h : s.dis ≠ want) (hr : ¬ r.Ok) :
    (interfaceUpdate r want s).err ≠ 0 ∧
      (interfaceUpdate r want s).screen.written = s.written := by
  unfold interfaceUpdate
  rw [if_neg h]
  split_ifs with hprint hfinalize
  · exact ⟨hprint, rfl⟩
  · exact ⟨hfinalize, rfl⟩
  · exact absurd ⟨not_not.mp hprint, not_not.mp hfinalize⟩ hr

end Update

/-- A call of interface_update. -/
structure Redraw where
  want : Readout
  r : DrawResults
  deriving DecidableEq, Repr

/-- The screen, driven by calls of interface_update. -/
def redraws : Machine Screen Redraw where
  step s c := some (interfaceUpdate c.r c.want s).screen

/-- The remembered values are those of the frame last written to the panel, or the
initial ones. -/
def Screen.Described (s : Screen) : Prop := s.dis = s.written.getD .initial

instance (s : Screen) : Decidable s.Described := inferInstanceAs (Decidable (_ = _))

/-- If the call draws and returns an error, the next call with the same arguments draws. -/
def Retried (s : Screen) (c : Redraw) : Prop :=
  (interfaceUpdate c.r c.want s).text ≠ none → (interfaceUpdate c.r c.want s).err ≠ 0 →
    ∀ r, (interfaceUpdate r c.want (interfaceUpdate c.r c.want s).screen).text ≠ none

/-- Neither call that a redraw makes fails. -/
def DrawsOk (s : Screen) (c : Redraw) : Prop := s.dis ≠ c.want → c.r.Ok

instance (s : Screen) (c : Redraw) : Decidable (DrawsOk s c) := inferInstanceAs (Decidable (_ → _))

/-- A failed redraw is never retried. -/
theorem not_retried_of_fail {s : Screen} {c : Redraw} (h : s.dis ≠ c.want) (hr : ¬ c.r.Ok) :
    ¬ Retried s c := by
  intro hretry
  have hdraws : (interfaceUpdate c.r c.want s).text ≠ none := by
    rw [interfaceUpdate_text, if_neg h]
    exact Option.some_ne_none _
  refine hretry hdraws (interfaceUpdate_fail h hr).1 .success ?_
  rw [interfaceUpdate_text, if_pos interfaceUpdate_dis]

theorem described_step {s t : Screen} {c : Redraw} (hs : s.Described)
    (h : redraws.step s c = some t) : t.Described ∧ Retried s c ↔ DrawsOk s c := by
  obtain rfl := Option.some.inj h
  by_cases hskip : s.dis = c.want
  · -- the call changes nothing
    have htext : (interfaceUpdate c.r c.want s).text = none := by
      rw [interfaceUpdate_skip hskip]
    refine iff_of_true ⟨?_, fun hne => absurd htext hne⟩ fun hne => absurd hskip hne
    rw [interfaceUpdate_skip hskip]
    exact hs
  · by_cases hr : c.r.Ok
    · have herr : (interfaceUpdate c.r c.want s).err = 0 := by rw [interfaceUpdate_draw hskip hr]
      refine iff_of_true ⟨?_, fun _ hne => absurd herr hne⟩ fun _ => hr
      rw [interfaceUpdate_draw hskip hr]
      rfl
    · exact iff_of_false (fun hboth => not_retried_of_fail hskip hr hboth.2)
        fun hok => hr (hok hskip)

/-- Over any calls, every failed redraw is retried and the remembered values always
describe a written frame exactly if no redraw fails. -/
theorem described_iff (calls : List Redraw) (s : Screen)
    (hrun : redraws.run .boot calls = some s) :
    (∀ v ∈ redraws.visited .boot calls, v.Described) ∧ redraws.Meets Retried .boot calls ↔
      redraws.Meets DrawsOk .boot calls :=
  Machine.stays_iff_meets (I := fun _ => True) (fun _ _ _ _ _ _ _ => trivial)
    (fun _ _ _ _ hs h => described_step hs h) hrun trivial rfl

/-- The last call is skipped: an error waiting to happen does not matter. -/
def steadyCalls : List Redraw :=
  [⟨⟨6, 0, '1'⟩, .success⟩, ⟨⟨5, 0, '1'⟩, .success⟩, ⟨⟨5, 0, '1'⟩, ⟨-5, 0⟩⟩]

theorem described_steadyCalls :
    ∃ s, redraws.run .boot steadyCalls = some s ∧
      (∀ v ∈ redraws.visited .boot steadyCalls, v.Described) ∧
        redraws.Meets Retried .boot steadyCalls :=
  ⟨_, rfl, (described_iff steadyCalls _ rfl).mpr (by decide)⟩

/-- A paused clock is redrawn, which fails; the same call is then answered with
'update not required'. -/
theorem not_retried :
    ¬ ∀ (calls : List Redraw) (s : Screen), redraws.run .boot calls = some s →
      (∀ v ∈ redraws.visited .boot calls, v.Described) ∧ redraws.Meets Retried .boot calls := by
  intro h
  have hall := (h [⟨⟨6, 1, '1'⟩, ⟨0, -5⟩⟩] _ rfl).1
  exact absurd hall (by decide)

end DodgeClock
