import Bos3000.Lib.Machine
import Bos3000.Lib.Pool
import Mathlib.Data.List.DropRight

-- useCallWs, which the layouts of the portal and of the admin console mount: the
-- sockets that one mount of it opens and the timers it sets.
namespace Bos3000.Web

inductive WsStatus
  | connecting | connected | disconnected | error
  deriving DecidableEq

inductive ReadyState
  | connecting | opened | closing | closed
  deriving DecidableEq

-- A WebSocket. `asked` says that close was called on it, `code` is that of its
-- close event.
structure Socket where
  state : ReadyState
  asked : Bool
  code : Option Nat
  deriving DecidableEq

structure Timer where
  delay : Nat
  pending : Bool
  deriving DecidableEq

inductive Stage
  | unmounted | mounted | left
  deriving DecidableEq

-- One instance of the hook, with all sockets and timers that it made.
structure Hook where
  stage : Stage
  status : WsStatus
  sockets : List Socket
  timers : List Timer
  wsRef : Option Nat
  reconnectAttemptRef : Nat
  reconnectTimerRef : Option Nat
  deriving DecidableEq

-- How the two hooks differ: the portal's opens no socket without a token and
-- returns disconnect. `enabled` is their argument.
structure Variant where
  needsToken : Bool
  returnsDisconnect : Bool
  enabled : Bool

def portalHook : Variant := ⟨true, true, true⟩

def adminHook : Variant := ⟨false, false, true⟩

-- What the browser does, and what the component calls. A token is read on every
-- connect.
inductive Label
  | mount (token : Option String)
  | opened (socket : Nat)
  | error (socket : Nat)
  | close (socket code : Nat)
  | fire (timer : Nat) (token : Option String)
  | unmount
  | disconnect
  deriving DecidableEq

def MAX_RECONNECT_DELAY : Nat := 30000

def BASE_RECONNECT_DELAY : Nat := 1000

def backoff (attempt : Nat) : Nat := min (BASE_RECONNECT_DELAY * 2 ^ attempt) MAX_RECONNECT_DELAY

-- Don't reconnect on clean close or auth failure.
def reconnects (code : Nat) : Bool := code ≠ 1000 && code ≠ 4401

def connect (v : Variant) (token : Option String) (s : Hook) : Hook :=
  if !v.enabled then s
  else if v.needsToken && token.all (· = "") then { s with status := .disconnected }
  else { s with status := .connecting, sockets := s.sockets ++ [⟨.connecting, false, none⟩],
                wsRef := some s.sockets.length }

-- WebSocket.close(1000)
def Socket.close (x : Socket) : Socket :=
  match x.state with
  | .connecting | .opened => { x with state := .closing, asked := true }
  | .closing | .closed => x

def clearTimer (s : Hook) : Hook :=
  match s.reconnectTimerRef with
  | some k => { s with timers := s.timers.modify k fun t => { t with pending := false } }
  | none => s

def closeSocket (s : Hook) : Hook :=
  match s.wsRef with
  | some i => { s with sockets := s.sockets.modify i Socket.close, wsRef := none }
  | none => s

-- ws.onclose
def onclose (code : Nat) (s : Hook) : Hook :=
  let s := { s with wsRef := none, status := .disconnected }
  if reconnects code then
    { s with timers := s.timers ++ [⟨backoff s.reconnectAttemptRef, true⟩],
             reconnectAttemptRef := s.reconnectAttemptRef + 1,
             reconnectTimerRef := some s.timers.length }
  else s

def Hook.step (v : Variant) (s : Hook) : Label → Option Hook
  | .mount token =>
      if s.stage = .unmounted then some (connect v token { s with stage := .mounted }) else none
  | .opened i =>
      s.sockets[i]?.bind fun x =>
        if x.state = .connecting then
          some { s with sockets := s.sockets.set i { x with state := .opened }, status := .connected,
                        reconnectAttemptRef := 0 }
        else none
  | .error i =>
      s.sockets[i]?.bind fun x => if x.state ≠ .closed then some { s with status := .error } else none
  | .close i code =>
      s.sockets[i]?.bind fun x =>
        if x.state ≠ .closed then
          some (onclose code { s with sockets := s.sockets.set i { x with state := .closed, code := some code } })
        else none
  | .fire k token =>
      s.timers[k]?.bind fun t =>
        if t.pending then some (connect v token { s with timers := s.timers.set k { t with pending := false } })
        else none
  | .unmount =>
      if s.stage = .mounted then some (closeSocket (clearTimer { s with stage := .left })) else none
  | .disconnect =>
      if v.returnsDisconnect && s.stage = .mounted then
        some { closeSocket (clearTimer s) with status := .disconnected }
      else none

def Hook.init : Hook := ⟨.unmounted, .disconnected, [], [], none, 0, none⟩

def Hook.run (v : Variant) (labels : List Label) : Option Hook := Machine.run (Hook.step v) .init labels

def Socket.live (x : Socket) : Bool := x.state = .connecting || x.state = .opened

-- The close event of a socket that the hook closed, which starts a reconnect.
def Socket.revives (x : Socket) : Bool := x.asked && x.code.any reconnects

-- The connections there are, and those that are about to be made.
def Hook.held (s : Hook) : Nat := s.sockets.countP Socket.live + s.timers.countP Timer.pending

def Hook.revived (s : Hook) : Nat := s.sockets.countP Socket.revives

def Label.opens : Label → Bool
  | .opened _ => true
  | _ => false

-- A close event that starts a reconnect.
def Label.retries : Label → Bool
  | .close _ code => reconnects code
  | _ => false

-- How often a reconnect was started since a socket opened.
def failures (labels : List Label) : Nat := (labels.rtakeWhile fun l => !l.opens).countP Label.retries

-- The hook was told to let go.
def ended (labels : List Label) : Bool := .unmount ∈ labels || .disconnect ∈ labels

section Counts

variable {α : Type*} (p : α → Bool)

theorem modify_eq_set {l : List α} {i : Nat} {x : α} (f : α → α) (hx : l[i]? = some x) :
    l.modify i f = l.set i (f x) := by
  obtain ⟨hlt, rfl⟩ := List.getElem?_eq_some_iff.mp hx
  refine List.ext_getElem? fun j => ?_
  by_cases hj : i = j
  · subst hj
    simp [hlt]
  · simp [List.getElem?_modify_ne, List.getElem?_set_ne, hj]

theorem countP_modify_add {l : List α} {i : Nat} {x : α} (f : α → α) (hx : l[i]? = some x) :
    (l.modify i f).countP p + (p x).toNat = l.countP p + (p (f x)).toNat := by
  rw [modify_eq_set f hx]
  exact Pool.countP_set_add p hx

theorem countP_modify_le {l : List α} {i : Nat} {f : α → α} (hf : ∀ x, p (f x) = true → p x = true) :
    (l.modify i f).countP p ≤ l.countP p := by
  cases hx : l[i]? with
  | none => rw [List.modify_eq_self (List.getElem?_eq_none_iff.mp hx)]
  | some x =>
      have hcount := countP_modify_add p f hx
      cases hafter : p (f x) with
      | true =>
          rw [hafter, hf x hafter] at hcount
          omega
      | false =>
          rw [hafter, Bool.toNat_false] at hcount
          omega

end Counts

section Hook

variable {v : Variant} {s t : Hook}

-- connect opens one socket at most.
theorem connect_cases (v : Variant) (token : Option String) (s : Hook) :
    connect v token s = s ∨ connect v token s = { s with status := .disconnected } ∨
      connect v token s = { s with status := .connecting, sockets := s.sockets ++ [⟨.connecting, false, none⟩],
                                   wsRef := some s.sockets.length } := by
  unfold connect
  split
  · exact .inl rfl
  · split
    · exact .inr (.inl rfl)
    · exact .inr (.inr rfl)

theorem onclose_held (code : Nat) (s : Hook) :
    (onclose code s).held = s.held + (reconnects code).toNat ∧
      (onclose code s).revived = s.revived ∧ (onclose code s).stage = s.stage := by
  unfold onclose
  cases hcode : reconnects code with
  | true => exact ⟨by simp [Hook.held, List.countP_append]; omega, rfl, rfl⟩
  | false => exact ⟨rfl, rfl, rfl⟩

-- Sockets carry what happened to them.
def Recorded (s : Hook) : Prop :=
  ∀ x ∈ s.sockets, (x.state = .closing → x.asked = true) ∧ (x.state ≠ .closed → x.code = none)

-- What holds while the hook was never told to let go.
structure InUse (s : Hook) : Prop where
  held : s.held ≤ 1
  fresh : s.stage = .unmounted → s.held = 0
  sockets : ∀ (i : Nat) (x : Socket), s.sockets[i]? = some x → x.state ≠ .closing ∧
    (x.live = true → s.wsRef = some i)
  timers : ∀ (k : Nat) (u : Timer), s.timers[k]? = some u → u.pending = true → s.reconnectTimerRef = some k

-- The banner shows a connection only where there is one.
def Truthful (s : Hook) : Prop :=
  s.stage ≠ .left → s.status = .connected → ∃ x ∈ s.sockets, x.state = .opened

theorem held_pos_of_live {i : Nat} {x : Socket} (hx : s.sockets[i]? = some x) (hlive : x.live = true) :
    0 < s.sockets.countP Socket.live :=
  List.countP_pos_iff.mpr ⟨x, List.mem_of_getElem? hx, hlive⟩

theorem held_pos_of_pending {k : Nat} {u : Timer} (hu : s.timers[k]? = some u) (hpending : u.pending = true) :
    0 < s.timers.countP Timer.pending :=
  List.countP_pos_iff.mpr ⟨u, List.mem_of_getElem? hu, hpending⟩

-- Nothing is live and nothing is pending.
theorem none_of_held_zero (h : s.held = 0) :
    (∀ (i : Nat) (x : Socket), s.sockets[i]? = some x → x.live = false) ∧
      ∀ (k : Nat) (u : Timer), s.timers[k]? = some u → u.pending = false := by
  refine ⟨fun i x hx => ?_, fun k u hu => ?_⟩
  · cases hlive : x.live with
    | false => rfl
    | true =>
        have hpos := held_pos_of_live hx hlive
        unfold Hook.held at h
        omega
  · cases hpending : u.pending with
    | false => rfl
    | true =>
        have hpos := held_pos_of_pending hu hpending
        unfold Hook.held at h
        omega

-- A hook that holds nothing may connect.
theorem InUse.connect (v : Variant) (token : Option String) (hheld : s.held = 0)
    (hclosing : ∀ (i : Nat) (x : Socket), s.sockets[i]? = some x → x.state ≠ .closing)
    (hstage : s.stage ≠ .unmounted) :
    InUse (connect v token s) := by
  obtain ⟨hlive, hpending⟩ := none_of_held_zero hheld
  obtain heq | heq | heq := connect_cases v token s <;> rw [heq]
  · refine ⟨by omega, fun h => absurd h hstage, fun i x hx => ⟨hclosing i x hx, fun h => ?_⟩,
      fun k u hu h => ?_⟩
    · rw [hlive i x hx] at h
      cases h
    · rw [hpending k u hu] at h
      cases h
  · refine ⟨?_, fun h => absurd h hstage, fun i x hx => ⟨hclosing i x hx, fun h => ?_⟩, fun k u hu h => ?_⟩
    · change s.held ≤ 1
      omega
    · rw [hlive i x hx] at h
      cases h
    · rw [hpending k u hu] at h
      cases h
  · refine ⟨?_, fun h => absurd h hstage, fun i x hx => ?_, fun k u hu h => ?_⟩
    · unfold Hook.held at hheld ⊢
      simp only [List.countP_append]
      have hone : [(⟨.connecting, false, none⟩ : Socket)].countP Socket.live = 1 := rfl
      omega
    · obtain ⟨_, hold⟩ | ⟨rfl, rfl⟩ := Pool.getElem?_concat_cases hx
      · refine ⟨hclosing i x hold, fun h => ?_⟩
        rw [hlive i x hold] at h
        cases h
      · exact ⟨nofun, fun _ => rfl⟩
    · rw [hpending k u hu] at h
      cases h

-- The end of the one socket that is live.
theorem InUse.onclose (h : InUse s) {i code : Nat} {x : Socket} (hx : s.sockets[i]? = some x)
    (hopen : x.state ≠ .closed) :
    InUse (onclose code { s with sockets := s.sockets.set i { x with state := .closed, code := some code } }) := by
  obtain ⟨hclosing, hwsRef⟩ := h.sockets i x hx
  have hlive : x.live = true := by
    cases hstate : x.state with
    | connecting | opened => simp [Socket.live, hstate]
    | closing => exact absurd hstate hclosing
    | closed => exact absurd hstate hopen
  have hcount := Pool.countP_set_add (y := { x with state := .closed, code := some code }) Socket.live hx
  have hdead : Socket.live { x with state := .closed, code := some code } = false := rfl
  rw [hlive, hdead, Bool.toNat_true, Bool.toNat_false] at hcount
  have hheld := h.held
  unfold Hook.held at hheld
  have hsockets : (s.sockets.set i { x with state := .closed, code := some code }).countP Socket.live = 0 := by omega
  have htimers : s.timers.countP Timer.pending = 0 := by omega
  have hnolive : ∀ (j : Nat) (y : Socket),
      (s.sockets.set i { x with state := .closed, code := some code })[j]? = some y →
        y.state ≠ .closing ∧ y.live = false := by
    intro j y hy
    obtain ⟨rfl, rfl⟩ | ⟨_, hold⟩ := Pool.getElem?_set_cases hy
    · exact ⟨nofun, rfl⟩
    · refine ⟨(h.sockets j y hold).1, ?_⟩
      have hzero := List.countP_eq_zero.mp hsockets y (List.mem_of_getElem? hy)
      simpa using hzero
  have hnotimer : ∀ (k : Nat) (u : Timer), s.timers[k]? = some u → u.pending = false := by
    intro k u hu
    have hzero := List.countP_eq_zero.mp htimers u (List.mem_of_getElem? hu)
    simpa using hzero
  have hstage : s.stage ≠ .unmounted := by
    intro hstage
    have hzero := h.fresh hstage
    have hpos := held_pos_of_live hx hlive
    unfold Hook.held at hzero
    omega
  obtain ⟨hnew, _, hsame⟩ := onclose_held code
    { s with sockets := s.sockets.set i { x with state := .closed, code := some code } }
  refine ⟨?_, fun hunmounted => absurd (hsame.symm.trans hunmounted) hstage, fun j y hy => ?_, fun k u hu hp => ?_⟩
  · rw [hnew, Hook.held, hsockets, htimers]
    cases reconnects code <;> decide
  · have hy : (s.sockets.set i { x with state := .closed, code := some code })[j]? = some y := by
      unfold Web.onclose at hy
      split at hy <;> exact hy
    refine ⟨(hnolive j y hy).1, fun hl => ?_⟩
    rw [(hnolive j y hy).2] at hl
    cases hl
  · unfold Web.onclose at hu ⊢
    cases hcode : reconnects code with
    | true =>
        simp only [hcode, if_true] at hu ⊢
        obtain ⟨_, hold⟩ | ⟨rfl, _⟩ := Pool.getElem?_concat_cases hu
        · rw [hnotimer k u hold] at hp
          cases hp
        · rfl
    | false =>
        simp only [hcode, Bool.false_eq_true, if_false] at hu
        rw [hnotimer k u hu] at hp
        cases hp

theorem InUse.step (h : InUse s) {l : Label} (hgo : ended [l] = false) (hstep : s.step v l = some t) : InUse t := by
  cases l with
  | mount token =>
      obtain ⟨hstage, heq⟩ := Option.ite_none_right_eq_some.mp hstep
      cases heq
      exact InUse.connect v token (s := { s with stage := .mounted }) (h.fresh hstage)
        (fun i x hx => (h.sockets i x hx).1) nofun
  | opened i =>
      obtain ⟨x, hx, hstep⟩ := Option.bind_eq_some_iff.mp hstep
      obtain ⟨hconnecting, heq⟩ := Option.ite_none_right_eq_some.mp hstep
      cases heq
      have hlive : x.live = true := by simp [Socket.live, hconnecting]
      have hcount := Pool.countP_set_add (y := { x with state := .opened }) Socket.live hx
      have hstays : Socket.live { x with state := .opened } = true := rfl
      rw [hlive, hstays] at hcount
      have hsame : Hook.held { s with sockets := s.sockets.set i { x with state := .opened }, status := .connected,
                                      reconnectAttemptRef := 0 } = s.held := by
        unfold Hook.held
        simp only
        omega
      refine ⟨hsame ▸ h.held, fun hstage => hsame ▸ h.fresh hstage, fun j y hy => ?_, h.timers⟩
      obtain ⟨rfl, rfl⟩ | ⟨_, hold⟩ := Pool.getElem?_set_cases hy
      · exact ⟨nofun, fun _ => (h.sockets j x hx).2 hlive⟩
      · exact h.sockets j y hold
  | error i =>
      obtain ⟨x, _, hstep⟩ := Option.bind_eq_some_iff.mp hstep
      obtain ⟨_, heq⟩ := Option.ite_none_right_eq_some.mp hstep
      cases heq
      exact ⟨h.held, h.fresh, h.sockets, h.timers⟩
  | close i code =>
      obtain ⟨x, hx, hstep⟩ := Option.bind_eq_some_iff.mp hstep
      obtain ⟨hopen, heq⟩ := Option.ite_none_right_eq_some.mp hstep
      cases heq
      exact h.onclose hx hopen
  | fire k token =>
      obtain ⟨u, hu, hstep⟩ := Option.bind_eq_some_iff.mp hstep
      obtain ⟨hpending, heq⟩ := Option.ite_none_right_eq_some.mp hstep
      cases heq
      have hpos := held_pos_of_pending hu hpending
      have hheld := h.held
      have hcount := Pool.countP_set_add (y := { u with pending := false }) Timer.pending hu
      rw [hpending, Bool.toNat_true, Bool.toNat_false] at hcount
      have hstage : s.stage ≠ .unmounted := by
        intro hstage
        have hzero := h.fresh hstage
        unfold Hook.held at hzero
        omega
      refine InUse.connect v token (s := { s with timers := s.timers.set k { u with pending := false } }) ?_
        (fun i x hx => (h.sockets i x hx).1) hstage
      unfold Hook.held at hheld ⊢
      simp only
      omega
  | unmount | disconnect => exact absurd hgo (by decide)

def letGo (s : Hook) : Hook := closeSocket (clearTimer s)

theorem clearTimer_sockets (s : Hook) : (clearTimer s).sockets = s.sockets ∧ (clearTimer s).wsRef = s.wsRef := by
  unfold clearTimer
  split <;> exact ⟨rfl, rfl⟩

theorem closeSocket_timers (s : Hook) : (closeSocket s).timers = s.timers := by
  unfold closeSocket
  split <;> rfl

theorem letGo_stage (s : Hook) : (letGo s).stage = s.stage ∧ (letGo s).status = s.status := by
  unfold letGo closeSocket clearTimer
  cases s.reconnectTimerRef <;> cases s.wsRef <;> exact ⟨rfl, rfl⟩

theorem close_live (x : Socket) : x.close.live = false := by
  unfold Socket.close
  split <;> simp_all [Socket.live]

theorem letGo_sockets (s : Hook) :
    (s.wsRef = none ∧ (letGo s).sockets = s.sockets) ∨
      ∃ i, s.wsRef = some i ∧ (letGo s).sockets = s.sockets.modify i Socket.close := by
  obtain ⟨hsockets, hwsRef⟩ := clearTimer_sockets s
  unfold letGo closeSocket
  cases heq : (clearTimer s).wsRef with
  | none => exact .inl ⟨hwsRef ▸ heq, hsockets⟩
  | some i => exact .inr ⟨i, hwsRef ▸ heq, congrArg (List.modify · i Socket.close) hsockets⟩

theorem letGo_timers (s : Hook) :
    (s.reconnectTimerRef = none ∧ (letGo s).timers = s.timers) ∨
      ∃ k, s.reconnectTimerRef = some k ∧
        (letGo s).timers = s.timers.modify k fun u => { u with pending := false } := by
  rw [letGo, closeSocket_timers]
  unfold clearTimer
  cases heq : s.reconnectTimerRef with
  | none => exact .inl ⟨rfl, rfl⟩
  | some k => exact .inr ⟨k, rfl, rfl⟩

-- Nothing that the hook still refers to is left.
theorem InUse.letGo (h : InUse s) : (letGo s).held = 0 := by
  have hsockets : (Web.letGo s).sockets.countP Socket.live = 0 := by
    refine List.countP_eq_zero.mpr fun x hx hlive => ?_
    obtain ⟨j, hj⟩ := List.getElem?_of_mem hx
    obtain ⟨hnone, heq⟩ | ⟨i, hsome, heq⟩ := letGo_sockets s <;> rw [heq] at hj
    · have hwsRef := (h.sockets j x hj).2 hlive
      rw [hnone] at hwsRef
      cases hwsRef
    · by_cases hi : i = j
      · subst hi
        rw [List.getElem?_modify_eq] at hj
        obtain ⟨y, _, rfl⟩ := Option.map_eq_some_iff.mp hj
        rw [close_live] at hlive
        cases hlive
      · rw [List.getElem?_modify_ne Socket.close s.sockets hi] at hj
        have hwsRef := (h.sockets j x hj).2 hlive
        rw [hsome] at hwsRef
        exact hi (Option.some.inj hwsRef)
  have htimers : (Web.letGo s).timers.countP Timer.pending = 0 := by
    refine List.countP_eq_zero.mpr fun u hu hpending => ?_
    obtain ⟨j, hj⟩ := List.getElem?_of_mem hu
    obtain ⟨hnone, heq⟩ | ⟨k, hsome, heq⟩ := letGo_timers s <;> rw [heq] at hj
    · have htimerRef := h.timers j u hj hpending
      rw [hnone] at htimerRef
      cases htimerRef
    · by_cases hk : k = j
      · subst hk
        rw [List.getElem?_modify_eq] at hj
        obtain ⟨y, _, rfl⟩ := Option.map_eq_some_iff.mp hj
        cases hpending
      · rw [List.getElem?_modify_ne _ s.timers hk] at hj
        have htimerRef := h.timers j u hj hpending
        rw [hsome] at htimerRef
        exact hk (Option.some.inj htimerRef)
  rw [Hook.held, hsockets, htimers]

theorem Recorded.letGo (h : Recorded s) :
    Recorded (letGo s) ∧ (letGo s).held ≤ s.held ∧ s.revived ≤ (letGo s).revived := by
  have htimers : (Web.letGo s).timers.countP Timer.pending ≤ s.timers.countP Timer.pending := by
    obtain ⟨_, heq⟩ | ⟨k, _, heq⟩ := letGo_timers s <;> rw [heq]
    exact countP_modify_le Timer.pending nofun
  obtain ⟨_, heq⟩ | ⟨i, _, heq⟩ := letGo_sockets s
  · refine ⟨fun x hx => h x (heq ▸ hx), ?_, ?_⟩
    · unfold Hook.held
      rw [heq]
      omega
    · unfold Hook.revived
      rw [heq]
  · have hlive : (Web.letGo s).sockets.countP Socket.live ≤ s.sockets.countP Socket.live := by
      rw [heq]
      refine countP_modify_le Socket.live fun x hx => ?_
      rw [close_live] at hx
      cases hx
    refine ⟨fun x hx => ?_, by unfold Hook.held; omega, ?_⟩
    · rw [heq] at hx
      obtain ⟨j, hj⟩ := List.getElem?_of_mem hx
      by_cases hi : i = j
      · subst hi
        rw [List.getElem?_modify_eq] at hj
        obtain ⟨y, hy, rfl⟩ := Option.map_eq_some_iff.mp hj
        obtain ⟨hasked, hcode⟩ := h y (List.mem_of_getElem? hy)
        unfold Socket.close
        cases hstate : y.state <;> simp_all
      · rw [List.getElem?_modify_ne Socket.close s.sockets hi] at hj
        exact h x (List.mem_of_getElem? hj)
    · unfold Hook.revived
      rw [heq]
      cases hx : s.sockets[i]? with
      | none => rw [List.modify_eq_self (List.getElem?_eq_none_iff.mp hx)]
      | some x =>
          have hcount := countP_modify_add Socket.revives Socket.close hx
          have hkept : x.revives = true → x.close.revives = true := by
            unfold Socket.revives Socket.close
            cases x.state <;> simp
          cases hbefore : x.revives with
          | true =>
              rw [hbefore, hkept hbefore] at hcount
              omega
          | false =>
              rw [hbefore, Bool.toNat_false] at hcount
              omega

theorem connect_recorded (h : Recorded s) (v : Variant) (token : Option String) :
    Recorded (connect v token s) ∧ (connect v token s).held ≤ s.held + 1 ∧
      (connect v token s).revived = s.revived ∧ (connect v token s).stage = s.stage := by
  obtain heq | heq | heq := connect_cases v token s <;> rw [heq]
  · exact ⟨h, Nat.le_succ _, rfl, rfl⟩
  · exact ⟨h, Nat.le_succ _, rfl, rfl⟩
  · refine ⟨fun x hx => ?_, ?_, ?_, rfl⟩
    · rcases List.mem_append.mp hx with hold | hnew
      · exact h x hold
      · rw [List.mem_singleton.mp hnew]
        exact ⟨nofun, fun _ => rfl⟩
    · simp only [Hook.held, List.countP_append, List.countP_singleton]
      split <;> omega
    · simp [Hook.revived, List.countP_append, Socket.revives]

theorem onclose_sockets (code : Nat) (s : Hook) : (onclose code s).sockets = s.sockets := by
  unfold onclose
  split <;> rfl

-- A close event on a socket that the hook closed may start one reconnect.
theorem close_recorded (h : Recorded s) {i code : Nat} {x : Socket} (hx : s.sockets[i]? = some x)
    (hopen : x.state ≠ .closed) (ht : t = onclose code { s with
      sockets := s.sockets.set i { x with state := .closed, code := some code } }) :
    Recorded t ∧ t.held + s.revived ≤ s.held + t.revived ∧ t.stage = s.stage := by
  subst ht
  obtain ⟨hasked, hcode⟩ := h x (List.mem_of_getElem? hx)
  obtain ⟨hheld, hrevived, hstage⟩ := onclose_held code
    { s with sockets := s.sockets.set i { x with state := .closed, code := some code } }
  refine ⟨fun y hy => ?_, ?_, hstage⟩
  · rw [onclose_sockets] at hy
    rcases Pool.mem_set hy with rfl | ⟨j, _, hold⟩
    · exact ⟨nofun, fun hne => absurd rfl hne⟩
    · exact h y (List.mem_of_getElem? hold)
  · rw [hheld, hrevived]
    have hlive := Pool.countP_set_add (y := { x with state := .closed, code := some code }) Socket.live hx
    have hrevives := Pool.countP_set_add (y := { x with state := .closed, code := some code }) Socket.revives hx
    have hdead : Socket.live { x with state := .closed, code := some code } = false := rfl
    have hunset : x.revives = false := by simp [Socket.revives, hcode hopen]
    have hset : Socket.revives { x with state := .closed, code := some code } = (x.asked && reconnects code) := rfl
    rw [hdead, Bool.toNat_false] at hlive
    rw [hunset, hset, Bool.toNat_false] at hrevives
    simp only [Hook.held, Hook.revived]
    cases hl : x.live with
    | true =>
        rw [hl, Bool.toNat_true] at hlive
        have hone := Bool.toNat_le (reconnects code)
        omega
    | false =>
        have hclosing : x.state = .closing := by
          cases hstate : x.state <;> simp_all [Socket.live]
        have hsame : (x.asked && reconnects code) = reconnects code := by rw [hasked hclosing, Bool.true_and]
        rw [hsame] at hrevives
        omega

-- A step adds a connection only as it mounts the hook, or with a close event on
-- a socket that the hook closed.
theorem step_recorded (h : Recorded s) {l : Label} (hstep : s.step v l = some t) :
    Recorded t ∧ (s.stage ≠ .unmounted → t.held + s.revived ≤ s.held + t.revived ∧
      t.stage ≠ .unmounted) := by
  cases l with
  | mount token =>
      obtain ⟨hstage, heq⟩ := Option.ite_none_right_eq_some.mp hstep
      cases heq
      exact ⟨(connect_recorded (s := { s with stage := .mounted }) h v token).1, fun hne => absurd hstage hne⟩
  | opened i =>
      obtain ⟨x, hx, hstep⟩ := Option.bind_eq_some_iff.mp hstep
      obtain ⟨hconnecting, heq⟩ := Option.ite_none_right_eq_some.mp hstep
      cases heq
      have hcode := (h x (List.mem_of_getElem? hx)).2 (by simp [hconnecting])
      refine ⟨fun y hy => ?_, fun hstage => ⟨?_, hstage⟩⟩
      · rcases Pool.mem_set hy with rfl | ⟨j, _, hold⟩
        · exact ⟨nofun, fun _ => hcode⟩
        · exact h y (List.mem_of_getElem? hold)
      · have hlive := Pool.countP_set_add (y := { x with state := .opened }) Socket.live hx
        have hrevives := Pool.countP_set_add (y := { x with state := .opened }) Socket.revives hx
        have hbefore : x.live = true := by simp [Socket.live, hconnecting]
        have hafter : Socket.live { x with state := .opened } = true := rfl
        have hsame : Socket.revives { x with state := .opened } = x.revives := rfl
        rw [hbefore, hafter] at hlive
        rw [hsame] at hrevives
        simp only [Hook.held, Hook.revived]
        omega
  | error i =>
      obtain ⟨x, _, hstep⟩ := Option.bind_eq_some_iff.mp hstep
      obtain ⟨_, heq⟩ := Option.ite_none_right_eq_some.mp hstep
      cases heq
      exact ⟨h, fun hstage => ⟨Nat.le_refl _, hstage⟩⟩
  | close i code =>
      obtain ⟨x, hx, hstep⟩ := Option.bind_eq_some_iff.mp hstep
      obtain ⟨hopen, heq⟩ := Option.ite_none_right_eq_some.mp hstep
      cases heq
      obtain ⟨hrecorded, hheld, hstage⟩ := close_recorded h hx hopen rfl
      exact ⟨hrecorded, fun hne => ⟨hheld, fun hunmounted => hne (hstage.symm.trans hunmounted)⟩⟩
  | fire k token =>
      obtain ⟨u, hu, hstep⟩ := Option.bind_eq_some_iff.mp hstep
      obtain ⟨hpending, heq⟩ := Option.ite_none_right_eq_some.mp hstep
      cases heq
      obtain ⟨hrecorded, hheld, hrevived, hstage⟩ :=
        connect_recorded (s := { s with timers := s.timers.set k { u with pending := false } }) h v token
      refine ⟨hrecorded, fun hne => ⟨?_, fun heq => hne (hstage.symm.trans heq)⟩⟩
      have hcount := Pool.countP_set_add (y := { u with pending := false }) Timer.pending hu
      rw [hpending, Bool.toNat_true, Bool.toNat_false] at hcount
      rw [hrevived]
      simp only [Hook.held, Hook.revived] at hheld ⊢
      omega
  | unmount =>
      obtain ⟨hstage, heq⟩ := Option.ite_none_right_eq_some.mp hstep
      cases heq
      obtain ⟨hrecorded, hheld, hrevived⟩ := Recorded.letGo (s := { s with stage := .left }) h
      refine ⟨hrecorded, fun _ => ⟨?_, ?_⟩⟩
      · change (letGo { s with stage := .left }).held + s.revived ≤
          s.held + (letGo { s with stage := .left }).revived
        change (letGo { s with stage := .left }).held ≤ s.held at hheld
        change s.revived ≤ (letGo { s with stage := .left }).revived at hrevived
        omega
      · intro hunmounted
        exact absurd ((letGo_stage { s with stage := .left }).1.symm.trans hunmounted) nofun
  | disconnect =>
      obtain ⟨hstage, heq⟩ := Option.ite_none_right_eq_some.mp hstep
      cases heq
      simp only [Bool.and_eq_true, decide_eq_true_eq] at hstage
      obtain ⟨hrecorded, hheld, hrevived⟩ := h.letGo
      refine ⟨hrecorded, fun hne => ⟨?_, ?_⟩⟩
      · change (letGo s).held + s.revived ≤ s.held + (letGo s).revived
        omega
      · intro hunmounted
        exact hne ((letGo_stage s).1.symm.trans hunmounted)

theorem Truthful.step (h : Truthful s) {l : Label} (hstep : s.step v l = some t) : Truthful t := by
  have hconnect : ∀ (u : Hook) (token : Option String), Truthful u → Truthful (connect v token u) := by
    intro u token hu
    obtain heq | heq | heq := connect_cases v token u <;> rw [heq]
    · exact hu
    · exact fun _ hstatus => absurd hstatus nofun
    · exact fun _ hstatus => absurd hstatus nofun
  cases l with
  | mount token =>
      obtain ⟨hstage, heq⟩ := Option.ite_none_right_eq_some.mp hstep
      cases heq
      exact hconnect { s with stage := .mounted } token fun _ hstatus => h (by simp [hstage]) hstatus
  | opened i =>
      obtain ⟨x, hx, hstep⟩ := Option.bind_eq_some_iff.mp hstep
      obtain ⟨_, heq⟩ := Option.ite_none_right_eq_some.mp hstep
      cases heq
      exact fun _ _ => ⟨_, Pool.mem_set_self hx _, rfl⟩
  | error i =>
      obtain ⟨x, _, hstep⟩ := Option.bind_eq_some_iff.mp hstep
      obtain ⟨_, heq⟩ := Option.ite_none_right_eq_some.mp hstep
      cases heq
      exact fun _ hstatus => absurd hstatus nofun
  | close i code =>
      obtain ⟨x, hx, hstep⟩ := Option.bind_eq_some_iff.mp hstep
      obtain ⟨_, heq⟩ := Option.ite_none_right_eq_some.mp hstep
      cases heq
      intro _ hstatus
      unfold onclose at hstatus
      split at hstatus <;> cases hstatus
  | fire k token =>
      obtain ⟨u, _, hstep⟩ := Option.bind_eq_some_iff.mp hstep
      obtain ⟨_, heq⟩ := Option.ite_none_right_eq_some.mp hstep
      cases heq
      exact hconnect { s with timers := s.timers.set k { u with pending := false } } token h
  | unmount =>
      obtain ⟨_, heq⟩ := Option.ite_none_right_eq_some.mp hstep
      cases heq
      exact fun hstage _ => absurd (letGo_stage { s with stage := .left }).1 hstage
  | disconnect =>
      obtain ⟨_, heq⟩ := Option.ite_none_right_eq_some.mp hstep
      cases heq
      exact fun _ hstatus => absurd hstatus nofun

-- The timers that were set since a socket opened back off.
structure BacksOff (labels : List Label) (s : Hook) : Prop where
  attempt : s.reconnectAttemptRef = failures labels
  delays : ((List.range (failures labels)).map backoff).IsSuffix (s.timers.map Timer.delay)

theorem connect_backsOff (v : Variant) (token : Option String) (s : Hook) :
    (connect v token s).reconnectAttemptRef = s.reconnectAttemptRef ∧ (connect v token s).timers = s.timers := by
  obtain heq | heq | heq := connect_cases v token s <;> rw [heq] <;> exact ⟨rfl, rfl⟩

theorem letGo_backsOff (s : Hook) : (letGo s).reconnectAttemptRef = s.reconnectAttemptRef ∧
    (letGo s).timers.map Timer.delay = s.timers.map Timer.delay := by
  constructor
  · unfold letGo closeSocket clearTimer
    cases s.reconnectTimerRef <;> cases s.wsRef <;> rfl
  · obtain ⟨_, heq⟩ | ⟨k, _, heq⟩ := letGo_timers s <;> rw [heq]
    refine List.ext_getElem? fun j => ?_
    by_cases hk : k = j
    · subst hk
      simp [Function.comp_def]
    · simp [List.getElem?_modify_ne, hk]

theorem failures_concat (labels : List Label) (l : Label) :
    failures (labels ++ [l]) = if l.opens then 0 else failures labels + (if l.retries then 1 else 0) := by
  unfold failures
  cases hopens : l.opens with
  | true => simp [List.rtakeWhile_concat_neg, hopens]
  | false => simp [List.rtakeWhile_concat_pos, hopens, List.countP_append, List.countP_singleton]

theorem BacksOff.same {labels : List Label} (h : BacksOff labels s) {l : Label} (hopens : l.opens = false)
    (hretries : l.retries = false) (hattempt : t.reconnectAttemptRef = s.reconnectAttemptRef)
    (htimers : t.timers.map Timer.delay = s.timers.map Timer.delay) : BacksOff (labels ++ [l]) t := by
  have hfailures : failures (labels ++ [l]) = failures labels := by simp [failures_concat, hopens, hretries]
  exact ⟨by rw [hattempt, hfailures, h.attempt], by rw [hfailures, htimers]; exact h.delays⟩

theorem BacksOff.step {labels : List Label} (h : BacksOff labels s) {l : Label} (hstep : s.step v l = some t) :
    BacksOff (labels ++ [l]) t := by
  cases l with
  | mount token =>
      obtain ⟨_, heq⟩ := Option.ite_none_right_eq_some.mp hstep
      cases heq
      obtain ⟨hattempt, htimers⟩ := connect_backsOff v token { s with stage := .mounted }
      exact h.same rfl rfl hattempt (congrArg _ htimers)
  | opened i =>
      obtain ⟨x, hx, hstep⟩ := Option.bind_eq_some_iff.mp hstep
      obtain ⟨_, heq⟩ := Option.ite_none_right_eq_some.mp hstep
      cases heq
      have hzero : failures (labels ++ [.opened i]) = 0 := by simp [failures_concat, Label.opens]
      exact ⟨hzero.symm, by rw [hzero]; exact List.nil_suffix⟩
  | error i =>
      obtain ⟨x, _, hstep⟩ := Option.bind_eq_some_iff.mp hstep
      obtain ⟨_, heq⟩ := Option.ite_none_right_eq_some.mp hstep
      cases heq
      exact h.same rfl rfl rfl rfl
  | close i code =>
      obtain ⟨x, hx, hstep⟩ := Option.bind_eq_some_iff.mp hstep
      obtain ⟨_, heq⟩ := Option.ite_none_right_eq_some.mp hstep
      cases heq
      unfold onclose
      cases hcode : reconnects code with
      | false => exact h.same rfl hcode rfl rfl
      | true =>
          have hmore : failures (labels ++ [.close i code]) = failures labels + 1 := by
            simp [failures_concat, Label.opens, Label.retries, hcode]
          refine ⟨by simp [hmore, h.attempt], ?_⟩
          rw [hmore, List.range_succ, List.map_append]
          simp only [if_true, List.map_append, List.map_cons, List.map_nil, h.attempt]
          obtain ⟨earlier, hearlier⟩ := h.delays
          exact ⟨earlier, by rw [← List.append_assoc, hearlier]⟩
  | fire k token =>
      obtain ⟨u, hu, hstep⟩ := Option.bind_eq_some_iff.mp hstep
      obtain ⟨_, heq⟩ := Option.ite_none_right_eq_some.mp hstep
      cases heq
      obtain ⟨hattempt, htimers⟩ :=
        connect_backsOff v token { s with timers := s.timers.set k { u with pending := false } }
      refine h.same rfl rfl hattempt ?_
      obtain ⟨hlt, rfl⟩ := List.getElem?_eq_some_iff.mp hu
      have hlength : k < (s.timers.map Timer.delay).length := by simpa using hlt
      have hdelay : s.timers[k].delay = (s.timers.map Timer.delay)[k] := by simp
      rw [htimers, List.map_set, hdelay, List.set_getElem_self]
  | unmount =>
      obtain ⟨_, heq⟩ := Option.ite_none_right_eq_some.mp hstep
      cases heq
      obtain ⟨hattempt, htimers⟩ := letGo_backsOff { s with stage := .left }
      exact h.same rfl rfl hattempt htimers
  | disconnect =>
      obtain ⟨_, heq⟩ := Option.ite_none_right_eq_some.mp hstep
      cases heq
      obtain ⟨hattempt, htimers⟩ := letGo_backsOff s
      exact h.same rfl rfl hattempt htimers

variable {labels : List Label}

theorem ended_concat (labels : List Label) (l : Label) : ended (labels ++ [l]) = (ended labels || ended [l]) := by
  simp only [ended, List.mem_append, List.mem_singleton, Bool.decide_or]
  cases decide (.unmount ∈ labels) <;> cases decide (.disconnect ∈ labels) <;> simp

-- The hook is mounted when it is told to let go.
theorem letGo_held (h : InUse s) {l : Label} (hgo : ended [l] = true) (hstep : s.step v l = some t) :
    t.held = 0 ∧ t.stage ≠ .unmounted := by
  cases l with
  | unmount =>
      obtain ⟨hstage, heq⟩ := Option.ite_none_right_eq_some.mp hstep
      cases heq
      refine ⟨InUse.letGo (s := { s with stage := .left }) ⟨h.held, nofun, h.sockets, h.timers⟩,
        fun hunmounted => ?_⟩
      exact absurd ((letGo_stage { s with stage := .left }).1.symm.trans hunmounted) nofun
  | disconnect =>
      obtain ⟨hstage, heq⟩ := Option.ite_none_right_eq_some.mp hstep
      cases heq
      simp only [Bool.and_eq_true, decide_eq_true_eq] at hstage
      refine ⟨h.letGo, fun hunmounted => ?_⟩
      have hmounted := (letGo_stage s).1.symm.trans hunmounted
      rw [hstage.2] at hmounted
      cases hmounted
  | mount | opened | error | close | fire => simp [ended] at hgo

theorem held_run (hrun : Hook.run v labels = some s) :
    Recorded s ∧ (ended labels = false → InUse s) ∧
      (ended labels = true → s.held ≤ s.revived ∧ s.stage ≠ .unmounted) := by
  refine Machine.run_induction (motive := fun labels s => Recorded s ∧ (ended labels = false → InUse s) ∧
    (ended labels = true → s.held ≤ s.revived ∧ s.stage ≠ .unmounted)) ?_ ?_ hrun
  · exact ⟨nofun, fun _ => ⟨Nat.zero_le 1, fun _ => rfl, nofun, nofun⟩, nofun⟩
  · rintro labels l s t _ ⟨hrecorded, hinUse, hletGo⟩ hstep
    obtain ⟨hnext, hmore⟩ := step_recorded hrecorded hstep
    rw [ended_concat]
    refine ⟨hnext, fun hnot => ?_, fun hended => ?_⟩
    · obtain ⟨hbefore, hgo⟩ := Bool.or_eq_false_iff.mp hnot
      exact (hinUse hbefore).step hgo hstep
    · cases hbefore : ended labels with
      | true =>
          obtain ⟨hheld, hstage⟩ := hletGo hbefore
          obtain ⟨hless, hafter⟩ := hmore hstage
          exact ⟨by omega, hafter⟩
      | false =>
          rw [hbefore, Bool.false_or] at hended
          obtain ⟨hzero, hstage⟩ := letGo_held (hinUse hbefore) hended hstep
          exact ⟨by omega, hstage⟩

-- The hook has one connection or one reconnect at most until it is told to let
-- go, and none afterwards but those that the close events of sockets it closed
-- itself started. The reconnects since a connection opened back off, and the
-- status says connected only where a socket is open.
theorem one_connection (hrun : Hook.run v labels = some s) :
    s.held ≤ (if ended labels then s.revived else 1) ∧
      ((List.range (failures labels)).map backoff).IsSuffix (s.timers.map Timer.delay) ∧
      (s.stage ≠ .left → s.status = .connected → ∃ x ∈ s.sockets, x.state = .opened) := by
  obtain ⟨_, hinUse, hletGo⟩ := held_run hrun
  have hbacksOff : BacksOff labels s := by
    refine Machine.run_induction (motive := BacksOff) ⟨rfl, List.nil_suffix⟩ ?_ hrun
    exact fun labels l middle t _ h hstep => h.step hstep
  have htruthful : Truthful s := by
    refine Machine.invariant (fun _ _ _ h hstep => h.step hstep) (fun _ hstatus => ?_) hrun
    cases hstatus
  refine ⟨?_, hbacksOff.delays, htruthful⟩
  cases hended : ended labels with
  | true => exact (hletGo hended).1
  | false => exact (hinUse hended).held

-- The first connection is lost, and the portal is left while the hook connects
-- again: a browser reports 1006 for a socket that is closed before it is open.
def leftWhileConnecting : List Label :=
  [.mount (some "t"), .opened 0, .close 0 1006, .fire 0 (some "t"), .unmount, .close 1 1006, .fire 1 (some "t")]

theorem one_connection_leftWhileConnecting :
    ∃ s, Hook.run portalHook leftWhileConnecting = some s ∧ s.held = 1 ∧ s.stage = .left ∧
      s.held ≤ (if ended leftWhileConnecting then s.revived else 1) ∧
      ((List.range (failures leftWhileConnecting)).map backoff).IsSuffix (s.timers.map Timer.delay) ∧
      (s.stage ≠ .left → s.status = .connected → ∃ x ∈ s.sockets, x.state = .opened) :=
  ⟨_, rfl, by decide, rfl, @one_connection portalHook _ leftWhileConnecting rfl⟩

end Hook

end Bos3000.Web
