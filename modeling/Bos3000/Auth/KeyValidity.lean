import Bos3000.Auth.APIKeys
import Bos3000.Lib.Machine

-- Which keys authenticate after any run of operations on keys.
namespace Bos3000.Auth

-- The operations that succeeded: a key was returned for a row, a row was revoked.
inductive KeyEvent
  | issued (id : Int64) (key : String)
  | revoked (id : Int64)
  deriving DecidableEq, Repr

def KeyEvent.id : KeyEvent → Int64
  | .issued id _ | .revoked id => id

inductive KeyLabel
  | create (caller : Principal) (raw : Option RawKey) (answer : Option Int64)
  | reset (caller : Principal) (id : Int64) (raw : Option RawKey) (answers : KeyAnswers)
  | revoke (caller : Principal) (id : Int64) (answers : KeyAnswers)

structure KeyRun where
  db : AuthDB
  events : List KeyEvent

def issued : Except APIError CreateAPIKeyResponse → List KeyEvent
  | .ok r => [.issued r.id r.key]
  | .error _ => []

def revoked (id : Int64) : Except APIError Unit → List KeyEvent
  | .ok _ => [.revoked id]
  | .error _ => []

def KeyRun.step (s : KeyRun) : KeyLabel → Option KeyRun
  | .create caller raw answer =>
      let (response, db) := createAPIKey caller raw answer s.db
      some ⟨db, s.events ++ issued response⟩
  | .reset caller id raw answers =>
      let (response, db) := resetAPIKey caller id raw answers s.db
      some ⟨db, s.events ++ issued response⟩
  | .revoke caller id answers =>
      let (response, db) := revokeAPIKey caller id answers s.db
      some ⟨db, s.events ++ revoked id response⟩

-- Runs over any users, from an empty table of keys.
def KeyRun.run (users : Users) (labels : List KeyLabel) : Option KeyRun :=
  Machine.run KeyRun.step ⟨⟨users, IndexedTable.empty⟩, []⟩ labels

-- The latest operation that returned the key for a row is followed by no other
-- operation on that row.
def usable (events : List KeyEvent) (key : String) : Prop :=
  ∃ id before after, events = before ++ .issued id key :: after ∧ ∀ e ∈ after, e.id ≠ id

section Events

def KeyEvent.keyOf (id : Int64) : KeyEvent → Option String
  | .issued i key => if i = id then some key else none
  | .revoked _ => none

def latestKey (events : List KeyEvent) (id : Int64) : Option String :=
  (events.filterMap (KeyEvent.keyOf id)).getLast?

variable {events : List KeyEvent} {id : Int64} {key : String}

theorem KeyEvent.keyOf_eq_some {e : KeyEvent} : e.keyOf id = some key ↔ e = .issued id key := by
  cases e with
  | issued i k => simp [keyOf]
  | revoked i => simp [keyOf]

theorem latestKey_concat_issued (i : Int64) :
    latestKey (events ++ [.issued i key]) id = if i = id then some key else latestKey events id := by
  by_cases h : i = id <;> simp [latestKey, KeyEvent.keyOf, h]

theorem latestKey_concat_revoked (i : Int64) :
    latestKey (events ++ [.revoked i]) id = latestKey events id := by
  simp [latestKey, KeyEvent.keyOf]

theorem latestKey_eq_some : latestKey events id = some key ↔
    ∃ before after, events = before ++ .issued id key :: after ∧ ∀ k, .issued id k ∉ after := by
  constructor
  · intro h
    obtain ⟨init, hinit⟩ := List.getLast?_eq_some_iff.mp h
    obtain ⟨before, rest, rfl, _, hrest⟩ := List.filterMap_eq_append_iff.mp hinit
    obtain ⟨skipped, e, after, rfl, hskipped, he, hafter⟩ := List.filterMap_eq_cons_iff.mp hrest
    cases KeyEvent.keyOf_eq_some.mp he
    refine ⟨before ++ skipped, after, by simp, fun k hk => ?_⟩
    have hnone := List.filterMap_eq_nil_iff.mp hafter _ hk
    simp [KeyEvent.keyOf] at hnone
  · rintro ⟨before, after, rfl, hafter⟩
    have hnone : after.filterMap (KeyEvent.keyOf id) = [] := by
      rw [List.filterMap_eq_nil_iff]
      intro e he
      cases hkey : e.keyOf id with
      | none => rfl
      | some k => exact absurd (KeyEvent.keyOf_eq_some.mp hkey ▸ he) (hafter k)
    simp [latestKey, KeyEvent.keyOf, hnone]

end Events

-- What the table holds of the operations so far.
structure Tracked (s : KeyRun) : Prop where
  issued : ∀ row ∈ s.db.apiKeys.rows, ∃ key, latestKey s.events row.id = some key ∧
    row.keyHash = keyHashOf key
  revoked : ∀ row ∈ s.db.apiKeys.rows, row.status = .revoked ↔ .revoked row.id ∈ s.events
  unrestricted : ∀ row ∈ s.db.apiKeys.rows, row.ipWhitelist = []
  users : ∀ row ∈ s.db.apiKeys.rows, (s.db.users.find row.userID).isSome
  stored : ∀ e ∈ s.events, ∃ row ∈ s.db.apiKeys.rows, row.id = e.id

theorem Tracked.created {s : KeyRun} (hinv : Tracked s) {row : APIKey} {key : String} {apiKeys : APIKeys}
    (hhash : row.keyHash = keyHashOf key) (hactive : row.status = .active) (hempty : row.ipWhitelist = [])
    (huser : (s.db.users.find row.userID).isSome) (hinsert : s.db.apiKeys.insert row = some apiKeys) :
    Tracked ⟨{ s.db with apiKeys }, s.events ++ [.issued row.id key]⟩ := by
  obtain ⟨hrows, hfresh⟩ := Table.insert_eq_some (IndexedTable.insert_eq_some.mp hinsert)
  have hnew : ∀ old ∈ s.db.apiKeys.rows, row.id ≠ old.id :=
    fun old hold heq => Table.find_eq_none.mp hfresh old hold heq.symm
  have hmem : ∀ r, r ∈ apiKeys.rows ↔ r ∈ s.db.apiKeys.rows ∨ r = row := by simp [hrows]
  refine ⟨fun r hr => ?_, fun r hr => ?_, fun r hr => ?_, fun r hr => ?_, fun e he => ?_⟩
  · rw [latestKey_concat_issued]
    obtain hr | rfl := (hmem r).mp hr
    · rw [if_neg (hnew r hr)]
      exact hinv.issued r hr
    · exact ⟨key, if_pos rfl, hhash⟩
  · obtain hr | rfl := (hmem r).mp hr
    · simpa using hinv.revoked r hr
    · -- an event for the new id would have a row
      have hnot : .revoked r.id ∉ s.events := by
        intro hmem
        obtain ⟨old, hold, heq⟩ := hinv.stored _ hmem
        exact hnew old hold heq.symm
      simp [hactive, hnot]
  · obtain hr | rfl := (hmem r).mp hr
    · exact hinv.unrestricted r hr
    · exact hempty
  · obtain hr | rfl := (hmem r).mp hr
    · exact hinv.users r hr
    · exact huser
  · obtain he | he := List.mem_append.mp he
    · obtain ⟨old, hold, heq⟩ := hinv.stored e he
      exact ⟨old, (hmem old).mpr (.inl hold), heq⟩
    · cases List.mem_singleton.mp he
      exact ⟨row, (hmem row).mpr (.inr rfl), rfl⟩

-- An update of a row that keeps everything but the hash, the prefix and the status.
theorem Tracked.updated {s : KeyRun} (hinv : Tracked s) {id : Int64} {f : APIKey → APIKey} {apiKeys : APIKeys}
    {event : KeyEvent} (hevent : event.id = id) (hrow : (s.db.apiKeys.find id).isSome)
    (hid : ∀ row, (f row).id = row.id) (huser : ∀ row, (f row).userID = row.userID)
    (hwhitelist : ∀ row, (f row).ipWhitelist = row.ipWhitelist)
    (htable : apiKeys.toTable = s.db.apiKeys.toTable.update id f hid)
    (hissued : ∀ row ∈ s.db.apiKeys.rows, ∃ key, latestKey (s.events ++ [event]) row.id = some key ∧
      (if row.id = id then f row else row).keyHash = keyHashOf key)
    (hrevoked : ∀ row ∈ s.db.apiKeys.rows,
      (if row.id = id then f row else row).status = .revoked ↔ .revoked row.id ∈ s.events ++ [event]) :
    Tracked ⟨{ s.db with apiKeys }, s.events ++ [event]⟩ := by
  have hmem : ∀ r, r ∈ apiKeys.rows ↔ ∃ old ∈ s.db.apiKeys.rows, r = if old.id = id then f old else old := by
    intro r
    rw [htable]
    exact Table.mem_update
  have hsame : ∀ old : APIKey, (if old.id = id then f old else old).id = old.id := by
    intro old
    split <;> simp [hid]
  refine ⟨fun r hr => ?_, fun r hr => ?_, fun r hr => ?_, fun r hr => ?_, fun e he => ?_⟩
  · obtain ⟨old, hold, rfl⟩ := (hmem r).mp hr
    rw [hsame]
    exact hissued old hold
  · obtain ⟨old, hold, rfl⟩ := (hmem r).mp hr
    rw [hsame]
    exact hrevoked old hold
  · obtain ⟨old, hold, rfl⟩ := (hmem r).mp hr
    split
    · exact (hwhitelist old).trans (hinv.unrestricted old hold)
    · exact hinv.unrestricted old hold
  · obtain ⟨old, hold, rfl⟩ := (hmem r).mp hr
    split
    · exact huser old ▸ hinv.users old hold
    · exact hinv.users old hold
  · have hstored : ∃ row ∈ s.db.apiKeys.rows, row.id = e.id := by
      obtain he | he := List.mem_append.mp he
      · exact hinv.stored e he
      · obtain ⟨row, hfind⟩ := Option.isSome_iff_exists.mp hrow
        cases List.mem_singleton.mp he
        exact ⟨row, (Table.find_eq_some.mp hfind).1, (Table.find_eq_some.mp hfind).2.trans hevent.symm⟩
    obtain ⟨old, hold, heq⟩ := hstored
    exact ⟨_, (hmem _).mpr ⟨old, hold, rfl⟩, (hsame old).trans heq⟩

theorem Tracked.reset {s : KeyRun} (hinv : Tracked s) {id : Int64} {raw : RawKey} {apiKeys : APIKeys}
    (hrow : (s.db.apiKeys.find id).isSome)
    (hupdate : s.db.apiKeys.update id (.reset raw) (APIKey.reset_id raw) = some apiKeys) :
    Tracked ⟨{ s.db with apiKeys }, s.events ++ [.issued id raw.fullKey]⟩ := by
  have hevent : KeyEvent.id (.issued id raw.fullKey) = id := rfl
  refine hinv.updated (f := .reset raw) hevent hrow (APIKey.reset_id raw) (fun _ => rfl) (fun _ => rfl)
    (IndexedTable.ofTable?_eq_some.mp hupdate) (fun row hr => ?_) (fun row hr => ?_)
  · rw [latestKey_concat_issued]
    by_cases hid : row.id = id
    · exact ⟨raw.fullKey, by rw [if_pos hid.symm], by rw [if_pos hid]; rfl⟩
    · rw [if_neg (Ne.symm hid), if_neg hid]
      exact hinv.issued row hr
  · have hstatus : (if row.id = id then row.reset raw else row).status = row.status := by
      split <;> rfl
    simpa [hstatus] using hinv.revoked row hr

theorem Tracked.revoke {s : KeyRun} (hinv : Tracked s) {id : Int64} (hrow : (s.db.apiKeys.find id).isSome) :
    Tracked ⟨{ s.db with
      apiKeys := s.db.apiKeys.assign id .revoke APIKey.revoke_id APIKey.revoke_keyHash },
      s.events ++ [.revoked id]⟩ := by
  have hevent : KeyEvent.id (.revoked id) = id := rfl
  refine hinv.updated (f := .revoke) hevent hrow APIKey.revoke_id (fun _ => rfl) (fun _ => rfl) rfl
    (fun row hr => ?_) (fun row hr => ?_)
  · obtain ⟨key, hkey, hhash⟩ := hinv.issued row hr
    refine ⟨key, (latestKey_concat_revoked id).trans hkey, ?_⟩
    split
    · exact hhash
    · exact hhash
  · by_cases hid : row.id = id
    · simp [hid, APIKey.revoke]
    · simpa [hid] using hinv.revoked row hr

theorem step_tracked {s t : KeyRun} {l : KeyLabel} (hinv : Tracked s) (h : s.step l = some t) :
    Tracked t := by
  have hsame : Tracked ⟨s.db, s.events ++ []⟩ := by rwa [List.append_nil]
  cases l with
  | create caller raw answer =>
      cases h
      obtain ⟨⟨e, hresponse⟩, hdb⟩ | ⟨raw, row, apiKeys, hresponse, hdb, hhash, hactive, hempty, huser,
        hinsert⟩ := createAPIKey_eq (rfl : createAPIKey caller raw answer s.db = _)
      · rw [hresponse, hdb]
        exact hsame
      · rw [hresponse, hdb]
        exact hinv.created hhash hactive hempty huser hinsert
  | reset caller id raw answers =>
      cases h
      obtain ⟨⟨e, hresponse⟩, hdb⟩ | ⟨raw, apiKeys, hresponse, hdb, hrow, hupdate⟩ :=
        resetAPIKey_eq (rfl : resetAPIKey caller id raw answers s.db = _)
      · rw [hresponse, hdb]
        exact hsame
      · rw [hresponse, hdb]
        exact hinv.reset hrow hupdate
  | revoke caller id answers =>
      cases h
      obtain ⟨⟨e, hresponse⟩, hdb⟩ | ⟨hresponse, hrow, hdb⟩ :=
        revokeAPIKey_eq (rfl : revokeAPIKey caller id answers s.db = _)
      · rw [hresponse, hdb]
        exact hsame
      · rw [hresponse, hdb]
        exact hinv.revoke hrow

theorem run_tracked {users : Users} {labels : List KeyLabel} {s : KeyRun}
    (hrun : KeyRun.run users labels = some s) : Tracked s := by
  refine Machine.invariant (fun _ _ _ hinv hstep => step_tracked hinv hstep) ?_ hrun
  constructor <;> intro x hx <;> exact absurd hx List.not_mem_nil

def authenticates (s : KeyRun) (h : Headers) (key : String) : Prop :=
  ∃ principal, validateAPIKey h key (some s.db) = .ok principal

section Validity

variable {s : KeyRun} {key : String}

theorem authenticates_iff (hinv : Tracked s) (h : Headers) : authenticates s h key ↔
    ∃ row ∈ s.db.apiKeys.rows, row.keyHash = keyHashOf key ∧ row.status = .active := by
  simp only [authenticates, validateAPIKey, Option.bind_some, AuthDB.lookup]
  constructor
  · rintro ⟨principal, hok⟩
    split at hok
    · cases hok
    · rename_i row u hlookup
      split at hok
      · cases hok
      · rename_i hactive
        obtain ⟨found, hfound, hjoin⟩ := Option.bind_eq_some_iff.mp hlookup
        obtain ⟨_, _, heq⟩ := Option.map_eq_some_iff.mp hjoin
        cases heq
        obtain ⟨hrow, hhash⟩ := IndexedTable.findBy_eq_some.mp hfound
        exact ⟨row, hrow, hhash, not_not.mp hactive⟩
  · rintro ⟨row, hrow, hhash, hactive⟩
    have hfound : s.db.apiKeys.findBy (keyHashOf key) = some row :=
      IndexedTable.findBy_eq_some.mpr ⟨hrow, hhash⟩
    obtain ⟨u, hu⟩ := Option.isSome_iff_exists.mp (hinv.users row hrow)
    simp [hfound, hu, hactive, hinv.unrestricted row hrow]

-- No other key that was issued has the hash of the one that is tried.
def NoCollision (events : List KeyEvent) (key : String) : Prop :=
  ∀ id k, .issued id k ∈ events → keyHashOf k = keyHashOf key → k = key

theorem mem_of_latestKey {events : List KeyEvent} {id : Int64} (h : latestKey events id = some key) :
    .issued id key ∈ events := by
  obtain ⟨before, after, rfl, _⟩ := latestKey_eq_some.mp h
  simp

theorem latest_row (hinv : Tracked s) {id : Int64} (h : latestKey s.events id = some key) :
    ∃ row ∈ s.db.apiKeys.rows, row.id = id ∧ row.keyHash = keyHashOf key := by
  obtain ⟨row, hrow, hid⟩ := hinv.stored _ (mem_of_latestKey h)
  cases hid
  obtain ⟨latest, hlatest, hhash⟩ := hinv.issued row hrow
  cases hlatest.symm.trans h
  exact ⟨row, hrow, rfl, hhash⟩

theorem authenticates_iff_latest (hinv : Tracked s) (hhash : NoCollision s.events key) (h : Headers) :
    authenticates s h key ↔ ∃ id, latestKey s.events id = some key ∧ .revoked id ∉ s.events := by
  rw [authenticates_iff hinv]
  constructor
  · rintro ⟨row, hrow, hkey, hactive⟩
    obtain ⟨latest, hlatest, hstored⟩ := hinv.issued row hrow
    have hsame : latest = key :=
      hhash row.id latest (mem_of_latestKey hlatest) (hstored.symm.trans hkey)
    refine ⟨row.id, hsame ▸ hlatest, fun hrevoked => ?_⟩
    have hstatus := (hinv.revoked row hrow).mpr hrevoked
    rw [hactive] at hstatus
    cases hstatus
  · rintro ⟨id, hlatest, hnot⟩
    obtain ⟨row, hrow, rfl, hkey⟩ := latest_row hinv hlatest
    refine ⟨row, hrow, hkey, ?_⟩
    cases hstatus : row.status with
    | active => rfl
    | revoked => exact absurd ((hinv.revoked row hrow).mp hstatus) hnot

-- Two rows do not hold one key.
theorem latest_unique (hinv : Tracked s) {id other : Int64} (hid : latestKey s.events id = some key)
    (hother : latestKey s.events other = some key) : id = other := by
  obtain ⟨row, hrow, rfl, hkey⟩ := latest_row hinv hid
  obtain ⟨row', hrow', rfl, hkey'⟩ := latest_row hinv hother
  rw [s.db.apiKeys.index_unique hrow hrow' (hkey.trans hkey'.symm)]

theorem latestKey_of_untouched {before after : List KeyEvent} {id : Int64}
    (hafter : ∀ e ∈ after, e.id ≠ id) : latestKey (before ++ .issued id key :: after) id = some key :=
  latestKey_eq_some.mpr ⟨before, after, rfl, fun _ hk => hafter _ hk rfl⟩

end Validity

-- A key authenticates exactly where it is usable, unless it was issued for a row
-- that had been revoked before: ResetAPIKey leaves the status alone.
theorem authenticates_iff_usable {users : Users} {labels : List KeyLabel} {s : KeyRun} {key : String}
    (hrun : KeyRun.run users labels = some s) (hhash : NoCollision s.events key) (h : Headers) :
    (authenticates s h key ↔ usable s.events key) ↔
      ∀ id before after, s.events = before ++ .issued id key :: after → (∀ e ∈ after, e.id ≠ id) →
        .revoked id ∉ before := by
  have hinv := run_tracked hrun
  rw [authenticates_iff_latest hinv hhash]
  constructor
  · intro hiff id before after hevents hafter hrevoked
    have hlatest : latestKey s.events id = some key := hevents ▸ latestKey_of_untouched hafter
    obtain ⟨other, hother, hnot⟩ := hiff.mpr ⟨id, before, after, hevents, hafter⟩
    cases latest_unique hinv hlatest hother
    exact hnot (hevents ▸ List.mem_append_left _ hrevoked)
  · intro hcondition
    constructor
    · rintro ⟨id, hlatest, hnot⟩
      obtain ⟨before, after, hevents, hissued⟩ := latestKey_eq_some.mp hlatest
      refine ⟨id, before, after, hevents, ?_⟩
      rw [hevents] at hnot
      rintro (⟨i, k⟩ | ⟨i⟩) he rfl
      · exact hissued k he
      · exact hnot (List.mem_append_right _ (List.mem_cons_of_mem _ he))
    · rintro ⟨id, before, after, hevents, hafter⟩
      refine ⟨id, hevents ▸ latestKey_of_untouched hafter, ?_⟩
      rw [hevents, List.mem_append, List.mem_cons]
      rintro (hrevoked | hrevoked | hrevoked)
      · exact hcondition id before after hevents hafter hrevoked
      · cases hrevoked
      · exact hafter _ hrevoked rfl

def alice : User :=
  { id := 7, email := "alice@example.com", username := "alice", passwordHash := "hash", role := .client,
    balance := 0, creditLimit := 0, maxConcurrent := 10, dailyLimit := 1000, ratePlanID := none,
    aLegRate := none, bLegRate := none, status := .active, webhookURL := none, createdAt := 0,
    updatedAt := 0 }

def aliceCalls : Principal := ⟨"7", ⟨7, "client"⟩, "alice"⟩

def onlyAlice : Users := ⟨⟨[alice], List.nodup_singleton _⟩, List.nodup_singleton _⟩

def firstKey : RawKey := ⟨List.replicate 32 0, rfl⟩

def secondKey : RawKey := ⟨List.replicate 32 255, rfl⟩

def otherKey : RawKey := ⟨List.replicate 32 1, rfl⟩

theorem firstKey_ne_secondKey : keyHashOf firstKey.fullKey ≠ keyHashOf secondKey.fullKey := by
  decide +kernel

def noHeaders : Headers := ⟨"", ""⟩

-- A key is reset, and another one is issued and revoked.
def resetActive : List KeyLabel :=
  [.create aliceCalls (some firstKey) (some 1), .create aliceCalls (some otherKey) (some 2),
   .revoke aliceCalls 2 ⟨true, true⟩, .reset aliceCalls 1 (some secondKey) ⟨true, true⟩]

theorem authenticates_iff_usable_reset : ∃ s, KeyRun.run onlyAlice resetActive = some s ∧
    usable s.events secondKey.fullKey ∧ authenticates s noHeaders secondKey.fullKey := by
  have hevents : (KeyRun.run onlyAlice resetActive).map KeyRun.events = some
      [.issued 1 firstKey.fullKey, .issued 2 otherKey.fullKey, .revoked 2,
       .issued 1 secondKey.fullKey] := by decide +kernel
  obtain ⟨s, hrun, hevents⟩ := Option.map_eq_some_iff.mp hevents
  have husable : usable s.events secondKey.fullKey := ⟨1, [_, _, _], [], hevents, by simp⟩
  have hhash : NoCollision s.events secondKey.fullKey := by
    have hfirst := firstKey_ne_secondKey
    have hother : keyHashOf otherKey.fullKey ≠ keyHashOf secondKey.fullKey := by decide +kernel
    intro id k hk hsame
    simp only [hevents, List.mem_cons, KeyEvent.issued.injEq, reduceCtorEq, List.not_mem_nil, or_false,
      false_or] at hk
    obtain ⟨_, rfl⟩ | ⟨_, rfl⟩ | ⟨_, rfl⟩ := hk
    · exact absurd hsame hfirst
    · exact absurd hsame hother
    · rfl
  refine ⟨s, hrun, husable, ((authenticates_iff_usable hrun hhash noHeaders).mpr ?_).mpr husable⟩
  intro id before after hsplit _ hrevoked
  have hkey : otherKey.fullKey ≠ secondKey.fullKey := by decide +kernel
  have hissued : .issued id secondKey.fullKey ∈ s.events := by simp [hsplit]
  have hmem : .revoked id ∈ s.events := by simp [hsplit, hrevoked]
  simp only [hevents, List.mem_cons, reduceCtorEq, KeyEvent.revoked.injEq, List.not_mem_nil, or_false,
    false_or] at hmem
  cases hmem
  simp [hevents, hkey.symm] at hissued

-- A key is revoked, and reset to a new one.
def resetRevoked : List KeyLabel :=
  [.create aliceCalls (some firstKey) (some 1), .revoke aliceCalls 1 ⟨true, true⟩,
   .reset aliceCalls 1 (some secondKey) ⟨true, true⟩]

theorem resetRevoked_unusable : ∃ s, KeyRun.run onlyAlice resetRevoked = some s ∧
    keyHashOf firstKey.fullKey ≠ keyHashOf secondKey.fullKey ∧
    usable s.events secondKey.fullKey ∧ ¬authenticates s noHeaders secondKey.fullKey := by
  have hevents : (KeyRun.run onlyAlice resetRevoked).map KeyRun.events =
      some [.issued 1 firstKey.fullKey, .revoked 1, .issued 1 secondKey.fullKey] := by decide +kernel
  have hrefused : (KeyRun.run onlyAlice resetRevoked).map
      (fun s => validateAPIKey noHeaders secondKey.fullKey (some s.db)) =
      some (.error ⟨.Unauthenticated, "API key has been revoked"⟩) := by decide +kernel
  obtain ⟨s, hrun, hevents⟩ := Option.map_eq_some_iff.mp hevents
  rw [hrun, Option.map_some, Option.some.injEq] at hrefused
  refine ⟨s, hrun, firstKey_ne_secondKey, ⟨1, [_, _], [], hevents, by simp⟩, ?_⟩
  rintro ⟨principal, hok⟩
  rw [hrefused] at hok
  cases hok

end Bos3000.Auth
