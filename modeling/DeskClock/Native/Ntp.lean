import DeskClock.Native.Library

/-!
# the time client

* `NtpUpdate`             a time request that has ended, translated from a reply of the library;
* `NtpClient`             a client in use: its handle and the updates not yet collected;
* `NtpClient.create`, `getTime`, `process`, `poll`, `close`   what can be done with one;
* `setTime`               sets the clock of the machine from a server.
-/

namespace DeskClock

open Native

inductive NtpResult where
  | success
  | timeout
  | failed (code : Int)
deriving DecidableEq

def NtpResult.ofCode (code : Int) : NtpResult :=
  if code = 0 then .success else if code = 1 then .timeout else .failed code

structure NtpUpdate where
  result : NtpResult
  /-- the time of the server; a failed request has none -/
  serverTime : Option Instant
deriving DecidableEq

namespace NtpUpdate

def ofReply (reply : NtpReply) : NtpUpdate :=
  let result := NtpResult.ofCode reply.code
  ⟨result, if result = .success then Instant.ofSeconds? reply.time else none⟩

/-- how far a clock is ahead of the server, in nanoseconds -/
def driftFrom (update : NtpUpdate) (now : Instant) : Option Int := update.serverTime.map now.since

end NtpUpdate

inductive SetTimeOutcome where
  | success
  | failed (status : Int)
deriving DecidableEq

namespace SetTimeOutcome

def ofStatus (status : Int) : SetTimeOutcome := if status = 0 then .success else .failed status

def message : SetTimeOutcome → String
  | .success => "time has been setup successfully"
  | .failed _ => "Setting time has failed"

end SetTimeOutcome

/-- set the clock of the machine; a status other than zero is an outcome and no fault -/
def setTime (lib : Library σ) (server : String) (timeout : Duration) (s : Session σ) :
    Except Fault SetTimeOutcome × Session σ :=
  match terminated? server with
  | none => (.error .interiorNul, s)
  | some server =>
    let (status, s) := s.ask lib (.ntp (.setTime server timeout.wholeSeconds))
    (.ok (.ofStatus status), s)

structure NtpClient where
  handle : Handle
  /-- the updates not yet collected, the earliest first -/
  queue : List NtpUpdate
deriving DecidableEq

namespace NtpClient

def create (lib : Library σ) (s : Session σ) : Except Fault NtpClient × Session σ :=
  let handle := s.nextHandle .ntp
  let (made, s) := s.ask lib (.ntp (.create handle))
  if (made : Bool) then (.ok ⟨handle, []⟩, s) else (.error (.nullHandle .ntpCreate), s)

/-- start a time request -/
def getTime (c : NtpClient) (lib : Library σ) (server : String) (timeout : Duration)
    (s : Session σ) : Except Fault Unit × Session σ :=
  match terminated? server with
  | none => (.error .interiorNul, s)
  | some server =>
    let (status, s) := s.ask lib (.ntp (.getTime c.handle server timeout.wholeSeconds))
    (checkStatus .ntpGetTime status, s)

/-- a reply of the library arrives -/
def receive (c : NtpClient) (reply : NtpReply) : NtpClient :=
  if reply.hasContext then { c with queue := c.queue ++ [.ofReply reply] } else c

def receiveAll (c : NtpClient) (replies : List NtpReply) : NtpClient := replies.foldl receive c

/-- let the library go on with a request; replies may arrive meanwhile -/
def process (c : NtpClient) (lib : Library σ) (s : Session σ) : NtpClient × Session σ :=
  let (replies, s) := s.ask lib (.ntp (.process c.handle))
  (c.receiveAll replies, s)

/-- collect the updates -/
def poll (c : NtpClient) : List NtpUpdate × NtpClient := (c.queue, { c with queue := [] })

def close (c : NtpClient) (lib : Library σ) (s : Session σ) : Session σ :=
  (s.ask lib (.ntp (.destroy c.handle))).2

end NtpClient

end DeskClock
