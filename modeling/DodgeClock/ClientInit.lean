import DodgeClock.Display

/-!
# What dclk_client_init reports

The start-up of the display. Every error that dclk_client_init finds ends it, and it then
returns 0; the error of bt_scan_start is kept back by start_auto_connection, which returns
nothing. main cannot tell a display that scans from one without a Bluetooth stack.
-/
namespace DodgeClock

/-- Results of the calls made by dclk_client_init and the functions it calls. -/
structure ClientInitResults where
  btEnable : ℤ
  authCbRegister : ℤ
  authInfoCbRegister : ℤ
  scanFilterAdd : ℤ
  scanFilterEnable : ℤ
  scanStart : ℤ
  deriving DecidableEq, Repr

def ClientInitResults.success : ClientInitResults := ⟨0, 0, 0, 0, 0, 0⟩

def ClientInitResults.Ok (r : ClientInitResults) : Prop := r = .success

instance ClientInitResults.Ok.decidable (r : ClientInitResults) : Decidable r.Ok :=
  inferInstanceAs (Decidable (_ = _))

/-- The display, with the filter of the scan module: the UUID it is set to, and whether it
is enabled. -/
structure Scanner where
  display : Display
  filter : Option Uuid
  filterEnabled : Bool

namespace Scanner

/-- Static initialization. -/
def reset : Scanner := ⟨.boot ⟨none, none⟩ false, none, false⟩

def setCb (cb : ClientCb) (s : Scanner) : Scanner :=
  { s with display := { s.display with client := { s.display.client with cb := cb } } }

/-- Only advertisers of the DCLK service match. -/
def Scanning (s : Scanner) : Prop :=
  s.display.scanning = true ∧ s.filter = some btUuidDclk ∧ s.filterEnabled = true

/-- scan_init. -/
def scanInit (r : ClientInitResults) (s : Scanner) : Scanner × ℤ :=
  if r.scanFilterAdd ≠ 0 then (s, r.scanFilterAdd)
  else
    let s := { s with filter := some btUuidDclk }
    if r.scanFilterEnable ≠ 0 then (s, r.scanFilterEnable)
    else ({ s with filterEnabled := true }, r.scanFilterEnable)

/-- start_auto_connection only logs an error. -/
def startAutoConnection (r : ClientInitResults) (s : Scanner) : Scanner :=
  if r.scanStart ≠ 0 then s else { s with display := s.display.startAutoConnection }

/-- dclk_client_init; `callbacks` may be NULL. What settings_load returns is not looked at,
nor is the passkey. -/
def dclkClientInit (callbacks : Option ClientCb) (_customPasskey : ℕ) (r : ClientInitResults)
    (s : Scanner) : Scanner × ℤ :=
  let s := match callbacks with
    | some cb => s.setCb cb
    | none => s
  if r.btEnable ≠ 0 then (s, 0)
  else if r.authCbRegister ≠ 0 then (s, 0)
  else if r.authInfoCbRegister ≠ 0 then (s, 0)
  else
    let scan := s.scanInit r
    if scan.2 ≠ 0 then (scan.1, 0) else (scan.1.startAutoConnection r, 0)

end Scanner

/-- What main prints or logs at last: "Interface init failed (err %d)", "Failed to init LBS
(err:%d)" or "Bluetooth initialized". -/
inductive MainReport where
  | interfaceInitFailed (err : ℤ)
  | failedToInit (err : ℤ)
  | bluetoothInitialized
  deriving DecidableEq, Repr

/-- main, with what its interface_init returns. -/
def displayMain (interfaceInit : ℤ) (r : ClientInitResults) (s : Scanner) : MainReport :=
  if interfaceInit ≠ 0 then .interfaceInitFailed interfaceInit
  else
    let err := (s.dclkClientInit (some appCallbacks) 123456 r).2
    if err ≠ 0 then .failedToInit err else .bluetoothInitialized

section Init
variable {r : ClientInitResults} {s : Scanner} {callbacks : Option ClientCb} {customPasskey : ℕ}

/-- Whatever fails. -/
theorem dclkClientInit_err : (s.dclkClientInit callbacks customPasskey r).2 = 0 := by
  simp only [Scanner.dclkClientInit]
  split_ifs <;> rfl

/-- Once its interface is set up, main reports success. -/
theorem displayMain_of_zero : displayMain 0 r s = .bluetoothInitialized := by
  simp [displayMain, dclkClientInit_err]

theorem ClientInitResults.ok_iff : r.Ok ↔ r.btEnable = 0 ∧ r.authCbRegister = 0 ∧
    r.authInfoCbRegister = 0 ∧ r.scanFilterAdd = 0 ∧ r.scanFilterEnable = 0 ∧
      r.scanStart = 0 := by
  cases r
  simp [ClientInitResults.Ok, ClientInitResults.success]

/-- The callbacks are set first, and looked at no more. -/
theorem dclkClientInit_callbacks : s.dclkClientInit callbacks customPasskey r =
    (callbacks.elim s s.setCb).dclkClientInit none customPasskey r := by
  cases callbacks <;> rfl

theorem scanInit_display : (s.scanInit r).1.display = s.display := by
  simp only [Scanner.scanInit]
  split_ifs <;> rfl

theorem scanInit_eq_zero :
    (s.scanInit r).2 = 0 ↔ r.scanFilterAdd = 0 ∧ r.scanFilterEnable = 0 := by
  by_cases hadd : r.scanFilterAdd = 0
  · by_cases henable : r.scanFilterEnable = 0
    · simp [Scanner.scanInit, hadd, henable]
    · simp [Scanner.scanInit, hadd, henable]
  · simp [Scanner.scanInit, hadd]

/-- After any failure the display is left as it was. -/
theorem dclkClientInit_failure (hno : ¬ r.Ok) :
    (s.dclkClientInit none customPasskey r).1.display = s.display := by
  simp only [Scanner.dclkClientInit]
  split_ifs with henable hauth hinfo hscan
  · rfl
  · rfl
  · rfl
  · exact scanInit_display
  · have hstart : r.scanStart ≠ 0 := by
      intro h0
      obtain ⟨hadd, hfilter⟩ := scanInit_eq_zero.mp (not_not.mp hscan)
      exact hno (ClientInitResults.ok_iff.mpr ⟨not_not.mp henable, not_not.mp hauth,
        not_not.mp hinfo, hadd, hfilter, h0⟩)
    rw [Scanner.startAutoConnection, if_pos hstart]
    exact scanInit_display

/-- Without a failure the filter is set and enabled, and scanning starts. -/
theorem dclkClientInit_success : (s.dclkClientInit none customPasskey .success).1 =
    ⟨s.display.startAutoConnection, some btUuidDclk, true⟩ := rfl

/-- The display starts with the callbacks given, and scans if nothing has failed. -/
theorem dclkClientInit_display :
    (Scanner.reset.dclkClientInit callbacks customPasskey r).1.display =
      .boot (callbacks.getD ⟨none, none⟩) (decide r.Ok) := by
  rw [dclkClientInit_callbacks]
  by_cases hok : r.Ok
  · rw [decide_eq_true hok, show r = .success from hok, dclkClientInit_success]
    cases callbacks <;> rfl
  · rw [decide_eq_false hok, dclkClientInit_failure hok]
    cases callbacks <;> rfl

theorem scanning_dclkClientInit :
    (Scanner.reset.dclkClientInit callbacks customPasskey r).1.Scanning ↔ r.Ok := by
  constructor
  · intro h
    have hscanning := h.1
    rw [dclkClientInit_display] at hscanning
    exact of_decide_eq_true hscanning
  · intro hok
    rw [dclkClientInit_callbacks, show r = .success from hok, dclkClientInit_success]
    exact ⟨rfl, rfl, rfl⟩

end Init

/-- dclk_client_init returns 0 exactly if all calls succeed, the display then scans with its
filter, and what else it returns is negative; main reports success only then. -/
structure ReportsStartUp (callbacks : Option ClientCb) (customPasskey : ℕ)
    (r : ClientInitResults) : Prop where
  reports : (Scanner.reset.dclkClientInit callbacks customPasskey r).2 = 0 ↔ r.Ok
  scans : (Scanner.reset.dclkClientInit callbacks customPasskey r).2 = 0 →
    (Scanner.reset.dclkClientInit callbacks customPasskey r).1.Scanning
  negative : ¬ r.Ok → (Scanner.reset.dclkClientInit callbacks customPasskey r).2 < 0
  silent : ∀ interfaceInit, ¬ r.Ok →
    displayMain interfaceInit r .reset ≠ .bluetoothInitialized

/-- There is no failure that is reported. -/
theorem reportsStartUp_iff (callbacks : Option ClientCb) (customPasskey : ℕ)
    (r : ClientInitResults) : ReportsStartUp callbacks customPasskey r ↔ r.Ok := by
  constructor
  · exact fun h => h.reports.mp dclkClientInit_err
  · intro hok
    refine ⟨iff_of_true dclkClientInit_err hok, fun _ => scanning_dclkClientInit.mpr hok,
      fun hno => absurd hok hno, fun _ hno => absurd hok hno⟩

/-- The stack cannot be enabled, and 0 is returned. -/
theorem not_reportsStartUp : ¬ ∀ (callbacks : Option ClientCb) (customPasskey : ℕ)
    (r : ClientInitResults), ReportsStartUp callbacks customPasskey r := by
  intro h
  have hok := (h (some appCallbacks) 123456 ⟨-5, 0, 0, 0, 0, 0⟩).reports.mp rfl
  exact absurd hok (by decide)

end DodgeClock
