import Bos3000.Callback.Views

-- GetRecordingURL of the recording service, which reads callback_calls.
namespace Bos3000.Recording

open Callback (CallRow CallStore callNotFound notAuthenticated)

structure GetRecordingURLParams where
  callID : String
  type : String
  deriving DecidableEq, Repr

structure GetRecordingURLResponse where
  url : String
  expiresAt : Time
  deriving DecidableEq, Repr

def notAvailable : APIError := ⟨.NotFound, "recording not available"⟩

-- 15 minutes
def urlLifetime : Int := 15 * 60 * second.toInt

-- The URL of a recording that the caller may see. The bucket signs a key's URL, or
-- fails.
def signedURL (sign : String → Except String String) (now : Time) (type : String) (row : CallRow) :
    Except APIError GetRecordingURLResponse :=
  if row.call.recordingStatus ≠ some .ready then .error notAvailable
  else
    -- Select the appropriate key.
    let key :=
      if type = "merged" then row.recordingKey
      else if type = "a" then row.recordingAKey
      else row.recordingBKey
    match key with
    | none => .error notAvailable
    | some key =>
        if key = "" then .error notAvailable
        else
          match sign key with
          | .error e => .error ⟨.Unknown, e⟩
          | .ok url => .ok ⟨url, now + urlLifetime⟩

def getRecordingURL (sign : String → Except String String) (now : Time) (auth : Option AuthData)
    (p : GetRecordingURLParams) (fault : Option String) (s : CallStore) :
    Except APIError GetRecordingURLResponse :=
  if p.type ≠ "merged" ∧ p.type ≠ "a" ∧ p.type ≠ "b" then
    .error ⟨.InvalidArgument, "type must be 'merged', 'a', or 'b'"⟩
  else if p.callID = "" then .error ⟨.InvalidArgument, "call_id is required"⟩
  else
    match auth with
    | none => .error notAuthenticated
    | some ad =>
        -- Look up call and recording keys.
        match s.select fault p.callID with
        | .error .noRows => .error callNotFound
        | .error (.failed e) => .error ⟨.Unknown, e⟩
        | .ok row =>
            -- Auth check: clients can only access their own recordings.
            if ad.role ≠ "admin" ∧ row.call.userID ≠ ad.userID then .error callNotFound
            else signedURL sign now p.type row

end Bos3000.Recording
