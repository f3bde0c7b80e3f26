import Bos3000.FSClient.Manager
import Bos3000.Lib.Machine

-- The callback service in real mode on top of the manager: whether the client that
-- it picked when it started is the manager's client.
namespace Bos3000.FSClient

-- The events that registerEventHandlers registers for.
def eventNames : List String := ["CHANNEL_ANSWER", "CHANNEL_BRIDGE", "CHANNEL_HANGUP"]

-- Where initService stands.
inductive InitStage
  | connecting
  | picking
  -- Service.fsClient is set, and these events are still to be registered on it
  | registering (names : List String)
  | serving
  | failed (message : String)
  deriving DecidableEq

structure Service where
  manager : FSClientManager
  fsClient : Option Nat
  stage : InitStage
  deriving DecidableEq

inductive Label
  | connect (failure : Option String)
  | pick
  | register
  -- the disconnect callback of a connection, at any time and any number of times
  | disconnect (connection : Nat)
  | redial (i : Nat) (succeeds : Bool)
  | install (i : Nat)
  deriving DecidableEq

def InitStage.register : List String → InitStage
  | [] => .serving
  | names => .registering names

def step (s : Service) : Label → Option Service
  | .connect failure =>
      if s.stage = .connecting then
        match s.manager.connect failure with
        | (.ok _, manager) => some { s with manager, stage := .picking }
        | (.error message, manager) =>
            some { s with manager, stage := .failed ("fsclient manager connect: " ++ message) }
      else none
  | .pick =>
      if s.stage = .picking then
        match s.manager.pick with
        | .ok client => some { s with fsClient := some client, stage := .register eventNames }
        | .error message => some { s with stage := .failed ("fsclient manager pick: " ++ message) }
      else none
  | .register =>
      match s.stage, s.fsClient with
      | .registering (name :: names), some client =>
          some { s with manager := s.manager.registerEventHandler client name, stage := .register names }
      | _, _ => none
  | .disconnect connection =>
      if connection < s.manager.connections.length then some { s with manager := s.manager.handleDisconnect }
      else none
  | .redial i succeeds => (s.manager.redial i succeeds).map fun manager => { s with manager }
  | .install i => (s.manager.install i).map fun manager => { s with manager }

def initService (address : String) : Service := ⟨newFSClientManager address, none, .connecting⟩

-- No goroutine makes its client the manager's once the service has picked one.
def beforePick (s : Service) : Label → Bool
  | .install _ => s.fsClient = none
  | _ => true

-- The client that the service uses is the manager's, and hears all the events.
def Current (s : Service) : Prop :=
  ∃ c client, s.fsClient = some c ∧ s.manager.client = some c ∧
    s.manager.connections[c]? = some (some client) ∧ ∀ name ∈ eventNames, name ∈ client.handlers

-- The events that are still to be registered on a client that was picked.
def InitStage.unregistered : InitStage → List String
  | .serving => []
  | .registering names => names
  | _ => eventNames

-- A client hears the events that are registered already.
def Hears (m : FSClientManager) (unregistered : List String) (c : Nat) : Prop :=
  ∃ client, m.connections[c]? = some (some client) ∧ ∀ name ∈ eventNames, name ∈ client.handlers ∨
    name ∈ unregistered

structure Inv (s : Service) : Prop where
  fresh : s.manager.Fresh s.fsClient
  unpicked : s.stage = .connecting ∨ s.stage = .picking → s.fsClient = none
  picked : s.stage = .serving → s.fsClient ≠ none
  hears : ∀ c, s.fsClient = some c → Hears s.manager s.stage.unregistered c

section Hears

variable {m n : FSClientManager} {names : List String} {c : Nat}

theorem Hears.of_connections (h : Hears m names c) (heq : n.connections = m.connections) : Hears n names c := by
  obtain ⟨client, hc, hnames⟩ := h
  exact ⟨client, heq ▸ hc, hnames⟩

theorem Hears.dial (h : Hears m names c) {succeeds : Bool} (heq : n.connections = (m.dial succeeds).connections) :
    Hears n names c := by
  obtain ⟨client, hc, hnames⟩ := h
  have hlt := (List.getElem?_eq_some_iff.mp hc).1
  refine ⟨client, ?_, hnames⟩
  rw [heq, FSClientManager.dial, List.getElem?_append_left hlt]
  exact hc

theorem Hears.register {name : String} (h : Hears m (name :: names) c) :
    Hears (m.registerEventHandler c name) names c := by
  obtain ⟨client, hc, hnames⟩ := h
  refine ⟨⟨client.handlers ++ [name]⟩, ?_, ?_⟩
  · simp [FSClientManager.registerEventHandler, hc]
  · intro other hother
    rw [List.mem_append, List.mem_singleton]
    obtain hold | hnew := hnames other hother
    · exact .inl (.inl hold)
    · rcases List.mem_cons.mp hnew with rfl | hrest
      · exact .inl (.inr rfl)
      · exact .inr hrest

end Hears

theorem unregistered_register (names : List String) : (InitStage.register names).unregistered = names := by
  cases names <;> rfl

theorem register_ne (names : List String) :
    InitStage.register names ≠ .connecting ∧ InitStage.register names ≠ .picking := by
  cases names <;> simp [InitStage.register]

section Step

variable {s t : Service} {l : Label}

-- What a step does to the two clients, apart from making the manager's another one.
inductive Moves (s : Service) : Label → Service → Prop
  | connect {failure : Option String} {stage : InitStage} (hstage : s.stage = .connecting)
      (hnext : stage ≠ .connecting ∧ stage ≠ .serving) :
      Moves s (.connect failure) { s with manager := (s.manager.connect failure).2, stage }
  | pick {c : Nat} (hstage : s.stage = .picking) (hpick : s.manager.pick = .ok c) :
      Moves s .pick { s with fsClient := some c, stage := .register eventNames }
  | pickFails (message : String) (hstage : s.stage = .picking) :
      Moves s .pick { s with stage := .failed message }
  | register {name : String} {names : List String} {c : Nat} (hstage : s.stage = .registering (name :: names))
      (hclient : s.fsClient = some c) :
      Moves s .register { s with manager := s.manager.registerEventHandler c name, stage := .register names }
  | disconnect (connection : Nat) : Moves s (.disconnect connection) { s with manager := s.manager.handleDisconnect }
  | redial {i : Nat} {succeeds : Bool} {manager : FSClientManager}
      (hredial : s.manager.redial i succeeds = some manager) :
      Moves s (.redial i succeeds) { s with manager }
  | install {i : Nat} {manager : FSClientManager} (hinstall : s.manager.install i = some manager) :
      Moves s (.install i) { s with manager }

theorem step_moves (h : step s l = some t) : Moves s l t := by
  cases l with
  | connect failure =>
      simp only [step] at h
      split at h
      · rename_i hstage
        have hconnect := fun stage => @Moves.connect s failure stage hstage
        split at h
        · rename_i manager heq
          cases h
          simpa [heq] using hconnect .picking (by simp)
        · rename_i message manager heq
          cases h
          simpa [heq] using hconnect (.failed _) (by simp)
      · cases h
  | pick =>
      simp only [step] at h
      split at h
      · rename_i hstage
        split at h
        · rename_i c hpick
          cases h
          exact .pick hstage hpick
        · cases h
          exact .pickFails _ hstage
      · cases h
  | register =>
      simp only [step] at h
      split at h
      · rename_i name names c hstage hclient
        cases h
        exact .register hstage hclient
      · cases h
  | disconnect connection =>
      simp only [step] at h
      split at h
      · cases h
        exact .disconnect connection
      · cases h
  | redial i succeeds =>
      obtain ⟨manager, hredial, rfl⟩ := Option.map_eq_some_iff.mp h
      exact .redial hredial
  | install i =>
      obtain ⟨manager, hinstall, rfl⟩ := Option.map_eq_some_iff.mp h
      exact .install hinstall

theorem Moves.inv (h : Moves s l t) (hinv : Inv s) : Inv t := by
  cases h with
  | @connect failure stage hstage hnext =>
      have hnone := hinv.unpicked (.inl hstage)
      refine ⟨hinv.fresh.connect failure, fun _ => hnone, fun hserving => absurd hserving hnext.2, ?_⟩
      intro c hc
      rw [hnone] at hc
      cases hc
  | @pick c hstage hpick =>
      obtain ⟨client, hhas⟩ := hinv.fresh.client_has c (pick_eq_ok hpick)
      refine ⟨hinv.fresh.pick hpick, fun hearly => ?_, fun _ => by simp, ?_⟩
      · exact absurd hearly (not_or.mpr (register_ne eventNames))
      · intro d hd
        rw [Option.some.injEq] at hd
        subst hd
        exact ⟨client, hhas, fun name hname => .inr (by rwa [unregistered_register])⟩
  | pickFails message hstage =>
      have hnone := hinv.unpicked (.inr hstage)
      refine ⟨hinv.fresh, fun _ => hnone, (by simp), ?_⟩
      intro c hc
      rw [hnone] at hc
      cases hc
  | @register name names c hstage hclient =>
      refine ⟨hinv.fresh.registerEventHandler c name, fun hearly => ?_, fun _ => by simp [hclient], ?_⟩
      · exact absurd hearly (not_or.mpr (register_ne names))
      · intro d hd
        rw [hclient, Option.some.injEq] at hd
        subst hd
        have hhears := hinv.hears c hclient
        rw [hstage] at hhears
        rw [unregistered_register]
        exact hhears.register
  | disconnect =>
      exact ⟨hinv.fresh.handleDisconnect, hinv.unpicked, hinv.picked,
        fun c hc => (hinv.hears c hc).of_connections rfl⟩
  | redial hredial =>
      obtain ⟨_, hconnections, _⟩ := redial_eq_some hredial
      exact ⟨hinv.fresh.redial hredial, hinv.unpicked, hinv.picked, fun c hc => (hinv.hears c hc).dial hconnections⟩
  | install hinstall =>
      obtain ⟨_, _, _, hconnections, _⟩ := install_eq_some hinstall
      exact ⟨hinv.fresh.install hinstall, hinv.unpicked, hinv.picked,
        fun c hc => (hinv.hears c hc).of_connections hconnections⟩

-- The service uses the manager's client, if it uses one.
def InStep (s : Service) : Prop := ∀ c, s.fsClient = some c → s.manager.client = some c

-- The manager has gone on to another client.
def Drifted (s : Service) : Prop := ∃ c, s.fsClient = some c ∧ s.manager.client ≠ some c

theorem Moves.inStep (h : Moves s l t) (hinv : Inv s) (hinStep : InStep s) (hbefore : beforePick s l = true) :
    InStep t := by
  cases h with
  | connect hstage =>
      intro c hc
      rw [hinv.unpicked (.inl hstage)] at hc
      cases hc
  | pick hstage hpick =>
      intro d hd
      exact hd ▸ pick_eq_ok hpick
  | pickFails | register | disconnect => exact hinStep
  | redial hredial =>
      intro c hc
      exact (redial_eq_some hredial).1.trans (hinStep c hc)
  | install hinstall =>
      intro c hc
      have hnone := of_decide_eq_true hbefore
      rw [hnone] at hc
      cases hc

theorem Moves.leaves (h : Moves s l t) (hinv : Inv s) (hbefore : beforePick s l = false) : Drifted t := by
  cases h with
  | install hinstall =>
      obtain ⟨c, hc, hclient, _⟩ := install_eq_some hinstall
      have hsome := of_decide_eq_false hbefore
      obtain ⟨d, hd⟩ := Option.ne_none_iff_exists'.mp hsome
      refine ⟨d, hd, ?_⟩
      rw [hclient, ← hd]
      exact fun heq => (hinv.fresh.installing _ c hc).2.2 heq.symm
  | connect | pick | pickFails | register | disconnect | redial => cases hbefore

theorem Moves.drifted (h : Moves s l t) (hinv : Inv s) (hdrifted : Drifted s) : Drifted t := by
  obtain ⟨c, hc, hne⟩ := hdrifted
  cases h with
  | connect hstage =>
      rw [hinv.unpicked (.inl hstage)] at hc
      cases hc
  | pick hstage | pickFails _ hstage =>
      rw [hinv.unpicked (.inr hstage)] at hc
      cases hc
  | register | disconnect => exact ⟨c, hc, hne⟩
  | redial hredial => exact ⟨c, hc, (redial_eq_some hredial).1 ▸ hne⟩
  | install hinstall =>
      obtain ⟨d, hd, hclient, _⟩ := install_eq_some hinstall
      refine ⟨c, hc, ?_⟩
      rw [hclient, ← hc]
      exact fun heq => (hinv.fresh.installing _ d hd).2.2 heq.symm

end Step

theorem inv_initService (address : String) : Inv (initService address) :=
  ⟨fresh_new address, fun _ => rfl, by simp [initService], by simp [initService]⟩

-- While it serves, the service uses the manager's client, with all events
-- registered on it, exactly where the manager has not reconnected since the
-- service picked its client.
theorem current_iff (address : String) {labels : List Label} {s : Service}
    (hrun : Machine.run step (initService address) labels = some s) (hserving : s.stage = .serving) :
    Current s ↔ (Machine.run (Machine.restrict beforePick step) (initService address) labels).isSome = true := by
  have hinit : InStep (initService address) := by simp [InStep, initService]
  have hor : Machine.run (Machine.restrict beforePick step) (initService address) labels = some s ∧
      Inv s ∧ InStep s ∨
      Machine.run (Machine.restrict beforePick step) (initService address) labels = none ∧ Inv s ∧ Drifted s := by
    refine Machine.restrict_or (P := fun s => Inv s ∧ InStep s) (Q := fun s => Inv s ∧ Drifted s)
      ⟨inv_initService address, hinit⟩ ?_ ?_ ?_ hrun
    · intro s l t hs hbefore hstep
      exact ⟨(step_moves hstep).inv hs.1, (step_moves hstep).inStep hs.1 hs.2 hbefore⟩
    · intro s l t hs hbefore hstep
      exact ⟨(step_moves hstep).inv hs.1, (step_moves hstep).leaves hs.1 hbefore⟩
    · intro s l t hs hstep
      exact ⟨(step_moves hstep).inv hs.1, (step_moves hstep).drifted hs.1 hs.2⟩
  obtain ⟨hsome, hinv, hinStep⟩ | ⟨hnone, _, c, hc, hne⟩ := hor
  · rw [hsome]
    refine iff_of_true ?_ rfl
    obtain ⟨c, hc⟩ := Option.ne_none_iff_exists'.mp (hinv.picked hserving)
    obtain ⟨client, hclient, hnames⟩ := hinv.hears c hc
    refine ⟨c, client, hc, hinStep c hc, hclient, fun name hname => (hnames name hname).resolve_right ?_⟩
    rw [hserving]
    exact List.not_mem_nil
  · rw [hnone]
    refine iff_of_false ?_ (by simp)
    rintro ⟨d, _, hd, hclient, _⟩
    rw [hc, Option.some.injEq] at hd
    subst hd
    exact hne hclient

def startUp : List Label := [.connect none, .pick, .register, .register, .register]

theorem current_startUp :
    ∃ s, Machine.run step (initService "127.0.0.1:8021") startUp = some s ∧ s.stage = .serving ∧ Current s := by
  have hrun : Machine.run step (initService "127.0.0.1:8021") startUp = some _ := rfl
  exact ⟨_, hrun, rfl, (current_iff _ hrun rfl).mpr rfl⟩

-- The connection breaks once, and the manager reconnects.
def reconnected : List Label := startUp ++ [.disconnect 0, .redial 0 true, .install 0]

theorem reconnected_drifts :
    ∃ s, Machine.run step (initService "127.0.0.1:8021") reconnected = some s ∧ s.stage = .serving ∧
      s.manager.healthy = true ∧ s.fsClient = some 0 ∧ s.manager.client = some 1 ∧
      s.manager.connections[1]? = some (some ⟨[]⟩) ∧ ¬ Current s := by
  refine ⟨_, rfl, rfl, rfl, rfl, rfl, rfl, ?_⟩
  rintro ⟨c, _, hused, hclient, _⟩
  cases hused
  cases hclient

end Bos3000.FSClient
