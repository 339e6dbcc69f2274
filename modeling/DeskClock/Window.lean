import DeskClock.Config

/-!
# the window

* `SurfaceCall`    what can be done with a surface;
* `Surface`        any behaviour of a surface that may fail: a result and a new inner state for every
                   call;
* `WindowHost`     the options, the surface and the state of the one window: closed, hidden or visible;
* `WindowHost.create`, `handle`, `draw`   drive the surface through the life of the window.
-/

namespace DeskClock

inductive SurfaceCall where
  /-- make the window, hidden -/
  | «open» (options : WindowSettings)
  | «show»
  | draw (lines : List String)
  | close
deriving DecidableEq

/-- any behaviour of a surface, with an inner state `τ` and causes of failure `ε` -/
structure Surface (τ ε : Type) where
  call : SurfaceCall → τ → Except ε Unit × τ

inductive WindowEvent where
  | readyToShow
  | closed
  | activate
deriving DecidableEq

inductive WindowState where
  | closed
  | hidden
  | visible
deriving DecidableEq

structure WindowHost (τ : Type) where
  options : WindowSettings
  surface : τ
  window : WindowState

namespace WindowHost

def new (options : WindowSettings) (surface : τ) : WindowHost τ := ⟨options, surface, .closed⟩

def isOpen (h : WindowHost τ) : Bool := h.window != .closed
def isVisible (h : WindowHost τ) : Bool := h.window == .visible

/-- call the surface; the window goes on to a state only if the call succeeds -/
def call (S : Surface τ ε) (c : SurfaceCall) (done : WindowState) (h : WindowHost τ) :
    Except ε Unit × WindowHost τ :=
  match S.call c h.surface with
  | (.ok (), surface) => (.ok (), { h with surface, window := done })
  | (.error e, surface) => (.error e, { h with surface })

/-- make the window unless there is one; tells whether it was made -/
def create (S : Surface τ ε) (h : WindowHost τ) : Except ε Bool × WindowHost τ :=
  if h.window = .closed then
    match h.call S (.open h.options) .hidden with
    | (.ok (), h) => (.ok true, h)
    | (.error e, h) => (.error e, h)
  else (.ok false, h)

/-- show a hidden window -/
def reveal (S : Surface τ ε) (h : WindowHost τ) : Except ε Unit × WindowHost τ :=
  if h.window = .hidden then h.call S .show .visible else (.ok (), h)

/-- drop the window, also if its surface fails to close -/
def close (S : Surface τ ε) (h : WindowHost τ) : Except ε Unit × WindowHost τ :=
  if h.window = .closed then (.ok (), h)
  else { h with window := .closed }.call S .close .closed

def handle (S : Surface τ ε) (event : WindowEvent) (h : WindowHost τ) :
    Except ε Unit × WindowHost τ :=
  match event with
  | .readyToShow => h.reveal S
  | .closed => h.close S
  | .activate =>
    match h.create S with
    | (.ok _, h) => (.ok (), h)
    | (.error e, h) => (.error e, h)

/-- draw a frame if the window is visible; tells whether it was drawn -/
def draw (S : Surface τ ε) (lines : List String) (h : WindowHost τ) : Except ε Bool × WindowHost τ :=
  if h.window = .visible then
    match h.call S (.draw lines) .visible with
    | (.ok (), h) => (.ok true, h)
    | (.error e, h) => (.error e, h)
  else (.ok false, h)

end WindowHost

end DeskClock
