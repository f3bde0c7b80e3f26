import Bos3000.Callback.RunCall
import Bos3000.Lib.Words

-- The commands the ESL client puts together for FreeSWITCH.
namespace Bos3000.FSClient

open Callback (Leg OriginateParams)
open Words

-- rawCommand.BuildMessage
def buildMessage (command : String) : String := "api " ++ command

-- The caller id of a leg is its own number where none is given.
def callerOf (params : OriginateParams) : String :=
  if params.callerID = "" then params.number else params.callerID

-- The command of both legs, which differ in the uuid.
def originate (uuid : String) (params : OriginateParams) : String :=
  "originate \x7borigination_uuid=" ++ uuid ++ ",origination_caller_id_number=" ++ callerOf params ++
    "\x7dsofia/gateway/" ++ params.gatewayIP ++ "/" ++ params.number ++ " &park()"

def originateALeg (params : OriginateParams) : String := originate (params.callID ++ "-a") params

def originateBLegAndBridge (params : OriginateParams) : String := originate (params.callID ++ "-b") params

def bridgeCall (aUUID bUUID : String) : String := "uuid_bridge " ++ aUUID ++ " " ++ bUUID

def recordingPath (callID : String) (leg : Leg) : String :=
  "/var/lib/freeswitch/recordings/" ++ callID ++ (match leg with | .A => "_a" | .B => "_b") ++ ".wav"

-- uuid_record, which starts or stops a recording.
def uuidRecord (verb uuid callID : String) (leg : Leg) : String :=
  "uuid_record " ++ uuid ++ " " ++ verb ++ " " ++ recordingPath callID leg

def startRecording : String → String → Leg → String := uuidRecord "start"

def stopRecording : String → String → Leg → String := uuidRecord "stop"

-- The one argument of originate that names the leg.
def dialString (uuid caller gateway number : String) : String :=
  "\x7borigination_uuid=" ++ uuid ++ ",origination_caller_id_number=" ++ caller ++ "\x7dsofia/gateway/" ++
    gateway ++ "/" ++ number

-- The message is one originate command with the values it was given.
structure Intact (message uuid caller gateway number : String) : Prop where
  line : isLine message = true
  words : words message = ["api", "originate", dialString uuid caller gateway number, "&park()"]
  caller : ∀ c ∈ caller.toList, c ≠ ',' ∧ c ≠ '\x7d'

-- A value of a channel variable in the list before the dial string.
def isVariable (s : String) : Bool := isWord s && s.toList.all fun c => c ≠ ',' && c ≠ '\x7d'

theorem originate_unwords (uuid : String) (params : OriginateParams) :
    buildMessage (originate uuid params) = unwords ["api", "originate",
      dialString uuid (callerOf params) params.gatewayIP params.number, "&park()"] := by
  have happ : "api " = "api" ++ " " := rfl
  have hname : "originate \x7borigination_uuid=" = "originate" ++ " " ++ "\x7borigination_uuid=" := rfl
  have hpark : " &park()" = " " ++ "&park()" := rfl
  unfold buildMessage originate dialString
  rw [happ, hname, hpark, unwords_cons_cons, unwords_cons_cons, unwords_cons_cons, unwords_singleton]
  simp only [String.append_assoc, -String.reduceAppend]

theorem originate_intact_iff (uuid : String) (params : OriginateParams) :
    Intact (buildMessage (originate uuid params)) uuid (callerOf params) params.gatewayIP params.number ↔
      isWord uuid ∧ isVariable (callerOf params) ∧ isWord params.gatewayIP ∧ isWord params.number := by
  have hdial : isWord (dialString uuid (callerOf params) params.gatewayIP params.number) =
      (isWord uuid && isWord (callerOf params) && isWord params.gatewayIP && isWord params.number) := by
    have hopen : isWord "\x7borigination_uuid=" = true := by decide
    have hcaller : isWord ",origination_caller_id_number=" = true := by decide
    have hgateway : isWord "\x7dsofia/gateway/" = true := by decide
    have hslash : isWord "/" = true := by decide
    unfold dialString
    simp only [isWord_append, hopen, hcaller, hgateway, hslash, Bool.true_and, Bool.and_true]
  have hreads := reads_iff (List.cons_ne_nil "api" ["originate",
    dialString uuid (callerOf params) params.gatewayIP params.number, "&park()"])
  rw [← originate_unwords] at hreads
  have hfour : (∀ w ∈ ["api", "originate", dialString uuid (callerOf params) params.gatewayIP params.number,
      "&park()"], isWord w = true) ↔
      isWord (dialString uuid (callerOf params) params.gatewayIP params.number) = true := by
    have hapi : isWord "api" = true := by decide
    have hname : isWord "originate" = true := by decide
    have hpark : isWord "&park()" = true := by decide
    simp only [List.forall_mem_cons, hapi, hname, hpark, List.not_mem_nil, false_implies, implies_true,
      true_and, and_true]
  rw [hfour, hdial] at hreads
  simp only [Bool.and_eq_true] at hreads
  simp only [isVariable, Bool.and_eq_true, List.all_eq_true]
  constructor
  · rintro ⟨hline, hwords, hcaller⟩
    obtain ⟨⟨⟨huuid, hword⟩, hgateway⟩, hnumber⟩ := hreads.mp ⟨hline, hwords⟩
    exact ⟨huuid, ⟨hword, by simpa using hcaller⟩, hgateway, hnumber⟩
  · rintro ⟨huuid, ⟨hword, hcaller⟩, hgateway, hnumber⟩
    obtain ⟨hline, hwords⟩ := hreads.mpr ⟨⟨⟨huuid, hword⟩, hgateway⟩, hnumber⟩
    exact ⟨hline, hwords, by simpa using hcaller⟩

-- The other commands carry nothing but the call's id.
theorem bridgeCall_reads {aUUID bUUID : String} (ha : isWord aUUID = true) (hb : isWord bUUID = true) :
    isLine (buildMessage (bridgeCall aUUID bUUID)) = true ∧
      words (buildMessage (bridgeCall aUUID bUUID)) = ["api", "uuid_bridge", aUUID, bUUID] := by
  have happ : "api " = "api" ++ " " := rfl
  have hname : "uuid_bridge " = "uuid_bridge" ++ " " := rfl
  have hjoined : buildMessage (bridgeCall aUUID bUUID) = unwords ["api", "uuid_bridge", aUUID, bUUID] := by
    unfold buildMessage bridgeCall
    rw [happ, hname, unwords_cons_cons, unwords_cons_cons, unwords_cons_cons, unwords_singleton]
    simp only [String.append_assoc, -String.reduceAppend]
  rw [hjoined]
  refine (reads_iff (List.cons_ne_nil _ _)).mpr ?_
  have hapi : isWord "api" = true := by decide
  have hbridge : isWord "uuid_bridge" = true := by decide
  simpa [hapi, hbridge] using ⟨ha, hb⟩

theorem isWord_recordingPath {callID : String} (h : isWord callID = true) (leg : Leg) :
    isWord (recordingPath callID leg) = true := by
  have hdirectory : isWord "/var/lib/freeswitch/recordings/" = true := by decide
  have hwav : isWord ".wav" = true := by decide
  have hleg : isWord (match leg with | .A => "_a" | .B => "_b") = true := by cases leg <;> decide
  unfold recordingPath
  simp only [isWord_append, hdirectory, h, hleg, hwav, Bool.and_self]

theorem uuidRecord_reads {verb uuid callID : String} (hverb : isWord verb = true)
    (huuid : isWord uuid = true) (hid : isWord callID = true) (leg : Leg) :
    isLine (buildMessage (uuidRecord verb uuid callID leg)) = true ∧
      words (buildMessage (uuidRecord verb uuid callID leg)) =
        ["api", "uuid_record", uuid, verb, recordingPath callID leg] := by
  have happ : "api " = "api" ++ " " := rfl
  have hname : "uuid_record " = "uuid_record" ++ " " := rfl
  have hjoined : buildMessage (uuidRecord verb uuid callID leg) =
      unwords ["api", "uuid_record", uuid, verb, recordingPath callID leg] := by
    unfold buildMessage uuidRecord
    rw [happ, hname, unwords_cons_cons, unwords_cons_cons, unwords_cons_cons, unwords_cons_cons,
      unwords_singleton]
    simp only [String.append_assoc, -String.reduceAppend]
  rw [hjoined]
  refine (reads_iff (List.cons_ne_nil _ _)).mpr ?_
  have hapi : isWord "api" = true := by decide
  have hrecord : isWord "uuid_record" = true := by decide
  simpa [hapi, hrecord] using ⟨huuid, hverb, isWord_recordingPath hid leg⟩

end Bos3000.FSClient
