import Mathlib.Tactic

/-!
# The Bluetooth side of the controller

The variables of DCLK.c, the state of the Bluetooth stack its functions act on,
and the statements of pair_DCLK, advertise_DCLK and dclk_pairing. What a stack
call returns is not determined here: each statement is executed with a record of
the results of the calls it makes. A nonzero result is a failed call, and a
failed call changes nothing.
-/
namespace DodgeClock

/-- A device address (`bt_addr_le_t`), only ever compared. -/
abbrev Addr := ℕ

/-- BT_LE_ADV_CONN_NO_ACCEPT_LIST and BT_LE_ADV_CONN_ACCEPT_LIST. -/
inductive AdvMode where
  | noAcceptList | acceptList
  deriving DecidableEq, Repr

/-- `numConn` and `pairEn` are `dclk_status`, and `allowedCnt` is the local
variable of advertise_DCLK; the other fields belong to the stack. -/
structure Link where
  numConn : ℕ
  pairEn : Bool
  allowedCnt : ℤ
  adv : Option AdvMode
  peer : Option Addr
  bonds : List Addr
  acceptList : List Addr
  deriving DecidableEq, Repr

/-- Before bt_enable, with the bonds kept in flash and any accept list. -/
def Link.boot (bonds acceptList : List Addr) : Link :=
  ⟨0, false, 0, none, none, bonds, acceptList⟩

/-- Results of the stack calls one statement makes. `add` lists the results of
bt_le_filter_accept_list_add in call order, and calls past its end succeed. -/
structure BtResults where
  unpair : ℤ
  clear : ℤ
  add : List ℤ
  advStart : ℤ
  deriving DecidableEq, Repr

def BtResults.success : BtResults := ⟨0, 0, [], 0⟩

/-- The error number EIO. -/
def eio : ℤ := 5

/-- The accept list as setup_accept_list fills it, with the counter `bond_cnt` and
the results of the calls still to come. -/
structure Fill where
  list : List Addr
  bondCnt : ℤ
  results : List ℤ
  deriving DecidableEq, Repr

def setupAcceptListCb (f : Fill) (addr : Addr) : Fill :=
  if f.bondCnt < 0 then f
  else
    let err := f.results.headD 0
    if err ≠ 0 then { f with bondCnt := -eio, results := f.results.tail }
    else ⟨f.list ++ [addr], f.bondCnt + 1, f.results.tail⟩

/-- setup_accept_list; bt_foreach_bond calls the callback once for each bond. -/
def setupAcceptList (r : BtResults) (l : Link) : Link × ℤ :=
  if r.clear ≠ 0 then (l, r.clear)
  else
    let f := l.bonds.foldl setupAcceptListCb ⟨[], 0, r.add⟩
    ({ l with acceptList := f.list }, f.bondCnt)

inductive LinkStmt where
  | setPairEn (enable : Bool)
  | advStop
  | unpair
  | advStart (mode : AdvMode)
  | setupAcceptList
  | advStartIfAllowed
  deriving DecidableEq, Repr

namespace Link

/-- bt_le_adv_start, called when nothing is advertised. -/
def advStart (err : ℤ) (mode : AdvMode) (l : Link) : Link :=
  if err ≠ 0 then l else { l with adv := some mode }

def exec (r : BtResults) : LinkStmt → Link → Link
  | .setPairEn enable, l => { l with pairEn := enable }
  | .advStop, l => { l with adv := none }
  | .unpair, l => if r.unpair ≠ 0 then l else { l with bonds := [] }
  | .advStart mode, l => l.advStart r.advStart mode
  | .setupAcceptList, l =>
      let s := DodgeClock.setupAcceptList r l
      { s.1 with allowedCnt := s.2 }
  | .advStartIfAllowed, l =>
      if 0 < l.allowedCnt then l.advStart r.advStart .acceptList else l

/-- on_connected without an error. The advertiser is stopped by the stack unless
`kept`. The counter is a `uint8_t`. -/
def onConnected (peer : Addr) (kept : Bool) (l : Link) : Link :=
  { l with peer := some peer, adv := if kept then l.adv else none,
           numConn := (l.numConn + 1) % 256 }

/-- A connection attempt ends; on_connected is then called with an error. -/
def onConnectFailed (kept : Bool) (l : Link) : Link :=
  { l with adv := if kept then l.adv else none }

def onDisconnected (l : Link) : Link :=
  { l with peer := none, numConn := (l.numConn + 255) % 256 }

/-- Pairing over the link of `a` stores its bond. -/
def bond (a : Addr) (l : Link) : Link :=
  { l with bonds := if a ∈ l.bonds then l.bonds else a :: l.bonds }

@[simp] theorem onConnected_pairEn (peer : Addr) (kept : Bool) (l : Link) :
    (l.onConnected peer kept).pairEn = l.pairEn := rfl

@[simp] theorem onConnectFailed_pairEn (kept : Bool) (l : Link) :
    (l.onConnectFailed kept).pairEn = l.pairEn := rfl

@[simp] theorem onDisconnected_pairEn (l : Link) : l.onDisconnected.pairEn = l.pairEn := rfl

@[simp] theorem bond_pairEn (a : Addr) (l : Link) : (l.bond a).pairEn = l.pairEn := rfl

theorem advStart_eq (err : ℤ) (mode : AdvMode) (l : Link) :
    l.advStart err mode = { l with adv := if err ≠ 0 then l.adv else some mode } := by
  unfold advStart
  split_ifs <;> rfl

/-- No statement makes or loses a connection. -/
@[simp] theorem exec_peer (r : BtResults) (st : LinkStmt) (l : Link) :
    (l.exec r st).peer = l.peer := by
  cases st <;> simp only [exec, advStart_eq, DodgeClock.setupAcceptList]
  all_goals split_ifs <;> rfl

theorem exec_pairEn {st : LinkStmt} (h : ∀ enable, st ≠ .setPairEn enable) (r : BtResults)
    (l : Link) : (l.exec r st).pairEn = l.pairEn := by
  cases st with
  | setPairEn enable => exact absurd rfl (h enable)
  | advStop => rfl
  | advStart mode => simp only [exec, advStart_eq]
  | unpair | setupAcceptList | advStartIfAllowed =>
      simp only [exec, advStart_eq, DodgeClock.setupAcceptList]
      split_ifs <;> rfl

end Link

def pairDCLK : List LinkStmt := [.advStop, .unpair, .advStart .noAcceptList]

def advertiseDCLK : List LinkStmt := [.advStop, .setupAcceptList, .advStartIfAllowed]

/-- A failure is never overwritten by a later bond. -/
theorem foldl_setupAcceptListCb_of_neg {f : Fill} (h : f.bondCnt < 0) (bonds : List Addr) :
    bonds.foldl setupAcceptListCb f = f := by
  induction bonds with
  | nil => rfl
  | cons a bonds ih => simpa [setupAcceptListCb, h] using ih

/-- As long as no call fails, each bond is added and counted. -/
theorem foldl_setupAcceptListCb_success {f : Fill} (hcnt : 0 ≤ f.bondCnt) {bonds : List Addr}
    (hres : ∀ i < bonds.length, f.results.getD i 0 = 0) : bonds.foldl setupAcceptListCb f =
      ⟨f.list ++ bonds, f.bondCnt + bonds.length, f.results.drop bonds.length⟩ := by
  induction bonds generalizing f with
  | nil => simp
  | cons a bonds ih =>
      have herr : f.results.headD 0 = 0 := by
        rw [List.headD_eq_head?_getD, List.head?_eq_getElem?, ← List.getD_eq_getElem?_getD]
        exact hres 0 (by simp)
      have hnext : setupAcceptListCb f a =
          ⟨f.list ++ [a], f.bondCnt + 1, f.results.tail⟩ := by
        simp only [setupAcceptListCb, if_neg (not_lt.mpr hcnt), herr, ne_eq, not_true, if_false]
      have htail : ∀ i < bonds.length, f.results.tail.getD i 0 = 0 := by
        intro i hi
        have h := hres (i + 1) (by simpa using hi)
        rwa [List.getD_eq_getElem?_getD, ← List.getElem?_tail, ← List.getD_eq_getElem?_getD] at h
      rw [List.foldl_cons, hnext, @ih ⟨_, _, f.results.tail⟩ (by simp only; omega) htail]
      have hcount : f.bondCnt + 1 + bonds.length = f.bondCnt + (bonds.length + 1) := by omega
      simp [List.drop_tail, hcount]

/-- The result of the call of bt_le_filter_accept_list_add for the bond `i`. -/
def BtResults.added (r : BtResults) (i : ℕ) : ℤ := r.add.getD i 0

/-- When the calls made succeed the accept list is the list of bonds. -/
theorem setupAcceptList_of_added {r : BtResults} {l : Link} (hclear : r.clear = 0)
    (hadd : ∀ i < l.bonds.length, r.added i = 0) :
    setupAcceptList r l = ({ l with acceptList := l.bonds }, (l.bonds.length : ℤ)) := by
  have h := @foldl_setupAcceptListCb_success ⟨[], 0, r.add⟩ le_rfl l.bonds hadd
  simp [setupAcceptList, hclear, h]

theorem setupAcceptList_success {r : BtResults} (hclear : r.clear = 0)
    (hadd : ∀ e ∈ r.add, e = 0) (l : Link) :
    setupAcceptList r l = ({ l with acceptList := l.bonds }, (l.bonds.length : ℤ)) := by
  refine setupAcceptList_of_added hclear fun i _ => ?_
  rw [BtResults.added, List.getD_eq_getElem?_getD]
  cases hi : r.add[i]? with
  | none => rfl
  | some e => exact hadd e (List.mem_of_getElem? hi)

end DodgeClock
