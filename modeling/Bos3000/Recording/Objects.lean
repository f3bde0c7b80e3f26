import Bos3000.Recording.Workers

-- Whether the keys of a row name objects that were uploaded, so that the URL of a
-- recording is one of an object.
namespace Bos3000.Recording

open Callback (CallRow callNotFound)

-- The upload of a leg fails only where an execution before has uploaded the object.
def keepsLegs (s : State) : ArchiveLabel → Bool
  | .pool (.move i (.merge a)) =>
      match s.tasks[i]? with
      | some (.merge x) => (x.stage.losesLeg a).all fun upload => x.event.key upload ∈ s.shared.files.bucket
      | _ => true
  | _ => true

structure Stored (s : State) : Prop where
  executions : ∀ x, .merge x ∈ s.tasks → ∀ upload ∈ x.stage.stored,
    x.event.key upload ∈ s.shared.files.bucket
  rows : ∀ row ∈ s.shared.calls.rows.rows, ∀ key ∈ keysOf row, key ∈ s.shared.files.bucket

section Step

variable {topic : MergeTopic} {s t : State} {l : ArchiveLabel}

theorem keysOf_assign {update : Update} {row : CallRow} {key : String} (h : key ∈ keysOf (update.assign row)) :
    key ∈ keysOf row ∨ ∃ recordingKey recordingAKey recordingBKey,
      update = .ready recordingKey recordingAKey recordingBKey ∧
      key ∈ [recordingKey, recordingAKey, recordingBKey] := by
  cases update with
  | failed => exact .inl h
  | ready recordingKey recordingAKey recordingBKey =>
      exact .inr ⟨_, _, _, rfl, by simpa [keysOf, Update.assign, List.reduceOption] using h⟩

-- An execution that moves, next to those that do not.
theorem Stored.executions_set (h : Stored s) {i : Nat} {x : Execution} {a : Answer} {stage : Stage} {files : Files}
    {update : Option Update} (htask : s.tasks[i]? = some (.merge x))
    (hallowed : keepsLegs s (.pool (.move i (.merge a))) = true)
    (hstep : x.stage.step x.event s.shared.files a = some (stage, files, update)) :
    ∀ y, .merge y ∈ s.tasks.set i (.merge ⟨x.event, stage⟩) → ∀ upload ∈ y.stage.stored,
      y.event.key upload ∈ files.bucket := by
  intro y hy upload hupload
  obtain heq | ⟨j, -, hj⟩ := Pool.mem_set hy
  · cases heq
    refine step_stored hstep (h.executions x (List.mem_of_getElem? htask)) (fun leg hleg => ?_) upload hupload
    simpa [keepsLegs, htask, hleg] using hallowed
  · exact step_bucket hstep (h.executions y (List.mem_of_getElem? hj) upload hupload)

theorem Stored.step (h : Stored s) (hallowed : keepsLegs s l = true) (hstep : archiveStep topic s l = some t) :
    Stored t := by
  cases archiveStep_changes hstep with
  | start request =>
      refine ⟨fun x hx upload hupload => ?_, h.rows⟩
      rcases List.mem_append.mp hx with hold | hnew
      · exact h.executions x hold upload hupload
      · cases request with
        | handleMerge callID =>
            cases List.mem_singleton.mp hnew
            cases hupload
        | cleanupLocalRecordings => cases List.mem_singleton.mp hnew
  | merge htask hmerge =>
      exact ⟨h.executions_set htask hallowed hmerge,
        fun row hrow key hkey => step_bucket hmerge (h.rows row hrow key hkey)⟩
  | @update i x a stage files update htask hmerge =>
      refine ⟨h.executions_set htask hallowed hmerge, fun row hrow key hkey => ?_⟩
      obtain ⟨old, hold, rfl⟩ := mem_apply.mp hrow
      split at hkey
      · obtain hkept | ⟨_, _, _, rfl, hnew⟩ := keysOf_assign hkey
        · exact step_bucket hmerge (h.rows old hold key hkept)
        · obtain ⟨hstored, rfl, rfl, rfl, rfl⟩ := step_ready hmerge
          have hbucket := h.executions x (List.mem_of_getElem? htask)
          rw [hstored] at hbucket
          simp only [List.mem_cons, List.not_mem_nil, or_false] at hnew
          obtain rfl | rfl | rfl := hnew
          · exact hbucket .merged (by simp)
          · exact hbucket .a (by simp)
          · exact hbucket .b (by simp)
      · exact step_bucket hmerge (h.rows old hold key hkey)
  | @insertCall record shared hnone hrows hfiles =>
      refine ⟨fun x hx upload hupload => ?_, fun row hrow key hkey => ?_⟩
      · show x.event.key upload ∈ shared.files.bucket
        rw [hfiles]
        exact h.executions x hx upload hupload
      · show key ∈ shared.files.bucket
        rw [hfiles]
        rw [(Table.insert_eq_some hrows).1, List.mem_append, List.mem_singleton] at hrow
        obtain hold | rfl := hrow
        · exact h.rows row hold key hkey
        · cases hkey
  | call callID hstatus =>
      refine ⟨h.executions, fun row hrow key hkey => ?_⟩
      obtain ⟨old, hold, rfl⟩ := mem_setStatus.mp hrow
      split at hkey <;> exact h.rows old hold key hkey
  | aside htasks hcalls hbucket =>
      refine ⟨fun x hx upload hupload => ?_, fun row hrow key hkey => ?_⟩
      · rw [hbucket]
        exact h.executions x (htasks x hx) upload hupload
      · rw [hcalls] at hrow
        rw [hbucket]
        exact h.rows row hrow key hkey

end Step

theorem stored_init : Stored initState where
  executions := fun _ hx => by cases hx
  rows := fun _ hrow => by cases hrow

section Endpoint

variable {sign : String → Except String String} {now : Time} {type : String} {row : CallRow}

-- The URL that the endpoint answers with is that of a key of the row.
theorem signedURL_eq_ok {r : GetRecordingURLResponse} (h : signedURL sign now type row = .ok r) :
    row.call.recordingStatus = some .ready ∧ ∃ key ∈ keysOf row, sign key = .ok r.url := by
  unfold signedURL at h
  split at h
  · cases h
  · rename_i hready
    refine ⟨not_not.mp hready, ?_⟩
    simp only at h
    split at h
    · cases h
    · rename_i key hkey
      split at h
      · cases h
      · split at h
        · cases h
        · rename_i url hurl
          cases h
          refine ⟨key, ?_, hurl⟩
          simp only [keysOf, List.reduceOption, List.mem_filterMap, List.mem_cons, List.not_mem_nil, or_false]
          refine ⟨some key, ?_, rfl⟩
          rw [← hkey]
          split
          · exact .inl rfl
          · split
            · exact .inr (.inl rfl)
            · exact .inr (.inr rfl)

theorem signedURL_eq_error (hsign : ∀ key, ∃ url, sign key = .ok url) {e : APIError}
    (h : signedURL sign now type row = .error e) : e.code = .NotFound := by
  unfold signedURL at h
  split at h
  · cases h
    rfl
  · simp only at h
    split at h
    · cases h
      rfl
    · split at h
      · cases h
        rfl
      · rename_i key _ _
        obtain ⟨url, hurl⟩ := hsign key
        rw [hurl] at h
        cases h

-- A valid request whose query goes through.
theorem getRecordingURL_valid {ad : AuthData} {p : GetRecordingURLParams}
    (htype : p.type = "merged" ∨ p.type = "a" ∨ p.type = "b") (hcall : p.callID ≠ "")
    (calls : Callback.CallStore) :
    getRecordingURL sign now (some ad) p none calls = .error callNotFound ∨
      ∃ row ∈ calls.rows.rows, getRecordingURL sign now (some ad) p none calls = signedURL sign now p.type row := by
  have hvalid : ¬(p.type ≠ "merged" ∧ p.type ≠ "a" ∧ p.type ≠ "b") := by
    rintro ⟨hmerged, ha, hb⟩
    obtain h | h | h := htype
    · exact hmerged h
    · exact ha h
    · exact hb h
  simp only [getRecordingURL, if_neg hvalid, if_neg hcall, Callback.CallStore.select]
  cases hfind : calls.rows.find p.callID with
  | none => exact .inl rfl
  | some row =>
      simp only
      split
      · exact .inl rfl
      · exact .inr ⟨row, (Table.find_eq_some.mp hfind).1, rfl⟩

end Endpoint

-- Unless the upload of a leg fails that no execution before has uploaded, a row that
-- is ready has an object for each of its keys, and the endpoint answers a valid
-- request with the URL of an object, or NotFound.
theorem recording_stored {topic : MergeTopic} {labels : List ArchiveLabel} {s : State}
    (hrun : Machine.run (Machine.restrict keepsLegs (archiveStep topic)) initState labels = some s) :
    (∀ row ∈ s.shared.calls.rows.rows, row.call.recordingStatus = some .ready →
      ∀ key ∈ keysOf row, key ∈ s.shared.files.bucket) ∧
    ∀ sign now ad p, (∀ key, ∃ url, sign key = .ok url) → p.type = "merged" ∨ p.type = "a" ∨
      p.type = "b" →
      p.callID ≠ "" →
      match getRecordingURL sign now (some ad) p none s.shared.calls with
      | .ok r => ∃ key ∈ s.shared.files.bucket, sign key = .ok r.url
      | .error e => e.code = .NotFound := by
  have hstored : Stored s := Machine.restrict_invariant (fun _ _ _ => Stored.step) stored_init hrun
  refine ⟨fun row hrow _ => hstored.rows row hrow, fun sign now ad p hsign htype hcall => ?_⟩
  obtain herror | ⟨row, hrow, heq⟩ := @getRecordingURL_valid sign now ad p htype hcall s.shared.calls
  · rw [herror]
    rfl
  · rw [heq]
    split
    · rename_i r hok
      obtain ⟨-, key, hkey, hurl⟩ := signedURL_eq_ok hok
      exact ⟨key, hstored.rows row hrow key hkey, hurl⟩
    · rename_i e herror
      exact signedURL_eq_error hsign herror

-- The upload of the A leg fails once it is stored: HandleMerge is redelivered.
def storesAgain : List Answer :=
  [.ok, .ok, .merged 2048, .ok, .ok, .ok, .ok, .fault "timeout", .ok, .ok, .ok, .ok, .ok]

theorem recording_stored_again : ∃ s, Machine.run (Machine.restrict keepsLegs (archiveStep sampleTopic)) initState
    (recordsLegs ++ handlesMerge 0 storesAll ++ handlesMerge 1 storesAgain) = some s ∧
    (∃ row ∈ s.shared.calls.rows.rows, row.call.recordingStatus = some .ready) ∧
    (∀ row ∈ s.shared.calls.rows.rows, row.call.recordingStatus = some .ready →
      ∀ key ∈ keysOf row, key ∈ s.shared.files.bucket) := by
  have hcheck : (Machine.run (Machine.restrict keepsLegs (archiveStep sampleTopic)) initState
      (recordsLegs ++ handlesMerge 0 storesAll ++ handlesMerge 1 storesAgain)).any (fun s =>
        s.shared.calls.rows.rows.any fun row => row.call.recordingStatus = some .ready) = true := by
    decide +kernel
  obtain ⟨s, hrun, hready⟩ := (Option.any_eq_true ..).mp hcheck
  obtain ⟨row, hrow, hstatus⟩ := List.any_eq_true.mp hready
  exact ⟨s, hrun, ⟨row, hrow, of_decide_eq_true hstatus⟩, (recording_stored hrun).1⟩

-- The upload of the A leg fails in the only execution, which goes on without it.
theorem ready_withoutLeg : ∃ s, Machine.run (archiveStep sampleTopic) initState
    (recordsLegs ++ handlesMerge 0 storesAgain) = some s ∧
    ¬ ∀ row ∈ s.shared.calls.rows.rows, row.call.recordingStatus = some .ready →
      ∀ key ∈ keysOf row, key ∈ s.shared.files.bucket := by
  have hcheck : (Machine.run (archiveStep sampleTopic) initState (recordsLegs ++ handlesMerge 0 storesAgain)).any
      (fun s => s.shared.calls.rows.rows.any fun row => row.call.recordingStatus = some .ready &&
        (keysOf row).any fun key => key ∉ s.shared.files.bucket) = true := by
    decide +kernel
  obtain ⟨s, hrun, hlost⟩ := (Option.any_eq_true ..).mp hcheck
  simp only [List.any_eq_true, Bool.and_eq_true, decide_eq_true_eq] at hlost
  obtain ⟨row, hrow, hready, key, hkey, hnone⟩ := hlost
  exact ⟨s, hrun, fun hall => hnone (hall row hrow hready key hkey)⟩

end Bos3000.Recording
