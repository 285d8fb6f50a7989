import TelemetryRelay.Archive.Endpoint
import TelemetryRelay.Archive.Response
import TelemetryRelay.Archive.Status

/-!
# Exchanges with the archive

What a request to the archive comes to, given the reply. Only a successful status counts as
success, and an answer to a query also has to be readable and free of errors.
-/

namespace TelemetryRelay

/-- What comes back for a request. -/
inductive ArchiveReply where
  /-- Nothing: there is no connection, or it broke before an answer came. -/
  | lost
  | answered (status : Nat) (body : String)
deriving DecidableEq, Repr

/-- Why an exchange with the archive failed. -/
inductive ArchiveError where
  | pingLost
  | pingRefused (status : Nat)
  | writeLost
  | writeRefused (status : Nat) (body : String)
  | queryLost
  | queryRefused (status : Nat) (body : String)
  | unreadable
  | queryFailed (reason : String)
deriving DecidableEq, Repr

/-- The sentence for an archive error. -/
def ArchiveError.message : ArchiveError → String
  | .pingLost => "Failed to reach InfluxDB"
  | .pingRefused status => "InfluxDB ping failed with status " ++ Status.text status
  | .writeLost => "Failed to send write to InfluxDB"
  | .writeRefused status body =>
    "InfluxDB write failed with status " ++ Status.text status ++ ": " ++ body
  | .queryLost => "Failed to send request to InfluxDB"
  | .queryRefused status body =>
    "InfluxDB query failed with status " ++ Status.text status ++ ": " ++ body
  | .unreadable => "Failed to parse InfluxDB response"
  | .queryFailed reason => "InfluxDB query error: " ++ reason

namespace ArchiveReply

/-- What a ping comes to. -/
def toPing : ArchiveReply → Except ArchiveError Unit
  | .lost => .error .pingLost
  | .answered status _ =>
    if Status.isSuccess status then .ok () else .error (.pingRefused status)

/-- What a write comes to. -/
def toWrite : ArchiveReply → Except ArchiveError Unit
  | .lost => .error .writeLost
  | .answered status body =>
    if Status.isSuccess status then .ok () else .error (.writeRefused status body)

/-- **What a query comes to**: the samples of its first result. -/
def toQuery : ArchiveReply → Except ArchiveError (List Point)
  | .lost => .error .queryLost
  | .answered status body =>
    if !Status.isSuccess status then .error (.queryRefused status body)
    else
      match QueryResponse.parse? body with
      | none => .error .unreadable
      | some response =>
        match response.error? with
        | some reason => .error (.queryFailed reason)
        | none => .ok response.points

end ArchiveReply

end TelemetryRelay
