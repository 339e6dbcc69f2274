import DeskClock.Window.Terminal

/-!
# surfaces and outputs for trials

* `Recording.surface`    keeps the calls in order; chosen calls fail;
* `Recording.output`     keeps the text; writing and flushing fail on demand.
-/

namespace DeskClock

/-- a failure that was asked for, named for the call -/
structure ForcedFailure where
  call : String
deriving DecidableEq

def ForcedFailure.message (e : ForcedFailure) : String := e.call ++ " failed"

def SurfaceCall.name : SurfaceCall → String
  | .open _ => "open"
  | .show => "show"
  | .draw _ => "draw"
  | .close => "close"

/-- what was recorded, and the names of the calls that fail -/
structure Recording (α : Type) where
  kept : List α := []
  failing : List String := []

namespace Recording

/-- fail if a call is among the failing ones -/
def outcome (r : Recording α) (name : String) : Except ForcedFailure Unit :=
  if r.failing.contains name then .error ⟨name⟩ else .ok ()

/-- a failing call is kept too -/
def surface : Surface (Recording SurfaceCall) ForcedFailure where
  call c r := (r.outcome c.name, { r with kept := r.kept ++ [c] })

/-- a failing write takes no text; a failing flush comes after the text is taken -/
def output : Output (Recording Char) ForcedFailure where
  write text r :=
    match r.outcome "write" with
    | .ok () => (.ok (), { r with kept := r.kept ++ text })
    | .error e => (.error e, r)
  flush r := (r.outcome "flush", r)

end Recording

end DeskClock
