import DeskClock.Window
import Mathlib

/-!
# the life of a window

* `SurfaceTrace`               the calls of a surface, each with whether it succeeded;
* `Surface.recorded`           a surface that keeps its calls; `run_recorded`: that is all it adds;
* `SurfaceCall.leaves`         the window after a call, `SurfaceTrace.window` that after some calls;
* `SurfaceTrace.Lawful`        every call is made in a state that permits it;
* `SurfaceTrace.ClosesOnce`    from one window to the next there is at most one call to close;
* `WindowHost.Op`              what can be asked of a window; `Op.call?`: the call that it makes, if any;
* `Op.apply_eq`, `Op.trace_apply`   an operation makes this call and no other, and fails if the call fails;
* `Orderly`                    what holds of a window and the calls made for it; `Orderly.run`: any
                               operations keep it.
-/

namespace DeskClock

variable {τ ε : Type}

/-! ## traces -/

/-- the calls of a surface, each with whether it succeeded -/
abbrev SurfaceTrace := List (SurfaceCall × Bool)

def SurfaceCall.isOpen : SurfaceCall → Bool
  | .open _ => true
  | _ => false

/-- The window after a call. One that is not made is not there, one that is not shown stays hidden, one
that is not drawn on stays visible, and one that fails to close is given up all the same. -/
def SurfaceCall.leaves : SurfaceCall × Bool → WindowState
  | (.open _, ok) => if ok then .hidden else .closed
  | (.show, ok) => if ok then .visible else .hidden
  | (.draw _, _) => .visible
  | (.close, _) => .closed

/-- a window is made where there is none, shown when it is hidden, drawn on when it is visible, and closed
when there is one -/
def WindowState.permits : WindowState → SurfaceCall → Bool
  | .closed, .open _ => true
  | .hidden, .show => true
  | .hidden, .close => true
  | .visible, .draw _ => true
  | .visible, .close => true
  | _, _ => false

namespace SurfaceTrace

variable {t : SurfaceTrace} {e : SurfaceCall × Bool}

/-- the window that follows from the calls: the last of them decides -/
def window (t : SurfaceTrace) : WindowState := (t.getLast?.map SurfaceCall.leaves).getD .closed

/-- every call is made in a state that permits it -/
def Lawful (t : SurfaceTrace) : Prop :=
  ∀ before e after, t = before ++ e :: after → (window before).permits e.1 = true

/-- behind a call that makes a window there is at most one call to close, as long as no other call makes
one -/
def ClosesOnce (t : SurfaceTrace) : Prop :=
  ∀ before options between after, t = before ++ (.open options, true) :: (between ++ after) →
    (∀ e ∈ between, e.1.isOpen = true → e.2 = false) → between.countP (·.1 = .close) ≤ 1

theorem window_concat : window (t ++ [e]) = SurfaceCall.leaves e := by
  simp [window]

theorem Lawful.nil : Lawful [] := by
  intro before e after h
  simp at h

theorem Lawful.concat (h : Lawful t) (he : (window t).permits e.1 = true) : Lawful (t ++ [e]) := by
  intro before e' after ht
  rcases List.eq_nil_or_concat' after with rfl | ⟨after, last, rfl⟩
  · obtain ⟨rfl, heq⟩ := List.append_inj' ht rfl
    cases heq
    exact he
  · rw [← List.cons_append, ← List.append_assoc] at ht
    exact h before e' after (List.append_inj' ht rfl).1

/-- where there is no window, all that can be done is to make one -/
theorem isOpen_of_permits {c : SurfaceCall} (h : WindowState.closed.permits c = true) :
    c.isOpen = true := by
  cases c with
  | «open» options => rfl
  | «show» => cases h
  | draw lines => cases h
  | close => cases h

/-- where there is no window, and none is made, none is closed -/
theorem Lawful.countP_close_eq_zero {before between after : SurfaceTrace}
    (h : Lawful (before ++ (between ++ after))) (hclosed : window before = .closed)
    (hopen : ∀ e ∈ between, e.1.isOpen = true → e.2 = false) :
    between.countP (·.1 = .close) = 0 := by
  induction between generalizing before with
  | nil => rfl
  | cons e between ih =>
    obtain ⟨c, ok⟩ := e
    have hpermits := h before (c, ok) (between ++ after) (by simp)
    rw [hclosed] at hpermits
    have hmakes := isOpen_of_permits hpermits
    have hfails : ok = false := hopen (c, ok) List.mem_cons_self hmakes
    have hstill : window (before ++ [(c, ok)]) = .closed := by
      rw [window_concat, hfails]
      cases c with
      | «open» options => rfl
      | «show» => cases hmakes
      | draw lines => cases hmakes
      | close => rfl
    have hrest : Lawful ((before ++ [(c, ok)]) ++ (between ++ after)) := by simpa using h
    have hother : c ≠ .close := by
      rintro rfl
      cases hmakes
    rw [List.countP_cons_of_neg (by simpa using hother)]
    exact ih hrest hstill fun e he => hopen e (List.mem_cons_of_mem _ he)

theorem Lawful.countP_close_le {before between after : SurfaceTrace}
    (h : Lawful (before ++ (between ++ after)))
    (hopen : ∀ e ∈ between, e.1.isOpen = true → e.2 = false) :
    between.countP (·.1 = .close) ≤ 1 := by
  induction between generalizing before with
  | nil => exact Nat.zero_le 1
  | cons e between ih =>
    obtain ⟨c, ok⟩ := e
    have hrest : Lawful ((before ++ [(c, ok)]) ++ (between ++ after)) := by simpa using h
    have hopen' : ∀ e ∈ between, e.1.isOpen = true → e.2 = false := fun e he =>
      hopen e (List.mem_cons_of_mem _ he)
    by_cases hc : c = .close
    · subst hc
      have hclosed : window (before ++ [(.close, ok)]) = .closed := window_concat
      rw [List.countP_cons_of_pos (by simp), hrest.countP_close_eq_zero hclosed hopen']
    · rw [List.countP_cons_of_neg (by simpa using hc)]
      exact ih hrest hopen'

theorem Lawful.closesOnce (h : Lawful t) : ClosesOnce t := by
  intro before options between after ht hopen
  have hsplit : Lawful ((before ++ [(.open options, true)]) ++ (between ++ after)) := by
    rw [ht] at h
    simpa using h
  exact hsplit.countP_close_le hopen

end SurfaceTrace

/-! ## surfaces that keep their calls -/

/-- a surface that keeps its calls, and whether they succeeded -/
def Surface.recorded (S : Surface τ ε) : Surface (τ × SurfaceTrace) ε where
  call c s :=
    let (result, surface) := S.call c s.1
    (result, (surface, s.2 ++ [(c, result.isOk)]))

namespace WindowHost

/-- the calls made so far -/
def trace (h : WindowHost (τ × SurfaceTrace)) : SurfaceTrace := h.surface.2

/-- the host without its record -/
def forget (h : WindowHost (τ × SurfaceTrace)) : WindowHost τ := ⟨h.options, h.surface.1, h.window⟩

/-- what can be asked of a window -/
inductive Op where
  | create
  | event (e : WindowEvent)
  | draw (lines : List String)

/-- an operation: whether it succeeds, and the host after it -/
def Op.apply (S : Surface τ ε) (h : WindowHost τ) : Op → Bool × WindowHost τ
  | create => ((h.create S).1.isOk, (h.create S).2)
  | event e => ((h.handle S e).1.isOk, (h.handle S e).2)
  | draw lines => ((h.draw S lines).1.isOk, (h.draw S lines).2)

def run (S : Surface τ ε) (h : WindowHost τ) (ops : List Op) : WindowHost τ :=
  ops.foldl (fun h op => (op.apply S h).2) h

/-- the call that an operation makes -/
def Op.call? (h : WindowHost τ) : Op → Option SurfaceCall
  | create => if h.window = .closed then some (.open h.options) else none
  | event .activate => if h.window = .closed then some (.open h.options) else none
  | event .readyToShow => if h.window = .hidden then some .show else none
  | event .closed => if h.window = .closed then none else some .close
  | draw lines => if h.window = .visible then some (.draw lines) else none

/-- whether a call succeeds, and the host after it -/
def after (S : Surface τ ε) (h : WindowHost τ) (c : SurfaceCall) : Bool × WindowHost τ :=
  ((S.call c h.surface).1.isOk,
   { h with
     surface := (S.call c h.surface).2
     window := SurfaceCall.leaves (c, (S.call c h.surface).1.isOk) })

theorem window_after (S : Surface τ ε) (h : WindowHost τ) (c : SurfaceCall) :
    (h.after S c).2.window = SurfaceCall.leaves (c, (h.after S c).1) := rfl

/-- a call that takes the window to a state only if it succeeds -/
theorem call_eq (S : Surface τ ε) (h : WindowHost τ) (c : SurfaceCall) (done : WindowState)
    (hdone : SurfaceCall.leaves (c, true) = done) (hkept : SurfaceCall.leaves (c, false) = h.window) :
    ((h.call S c done).1.isOk, (h.call S c done).2) = h.after S c := by
  unfold call after
  cases hcall : S.call c h.surface with
  | mk result surface =>
    cases result with
    | ok _ =>
      dsimp only
      rw [← hdone]
      rfl
    | error e =>
      dsimp only [Except.isOk, Except.toBool]
      rw [hkept]

theorem create_eq (S : Surface τ ε) (h : WindowHost τ) : ((h.create S).1.isOk, (h.create S).2) =
    if h.window = .closed then h.after S (.open h.options) else (true, h) := by
  unfold create
  split
  · next hw =>
    rw [← h.call_eq S (.open h.options) .hidden rfl hw.symm]
    cases h.call S (.open h.options) .hidden with
    | mk result host =>
      cases result with
      | ok _ => rfl
      | error e => rfl
  · rfl

theorem handle_activate (S : Surface τ ε) (h : WindowHost τ) :
    ((h.handle S .activate).1.isOk, (h.handle S .activate).2)
      = ((h.create S).1.isOk, (h.create S).2) := by
  unfold handle
  cases h.create S with
  | mk result host =>
    cases result with
    | ok _ => rfl
    | error e => rfl

theorem reveal_eq (S : Surface τ ε) (h : WindowHost τ) : ((h.reveal S).1.isOk, (h.reveal S).2) =
    if h.window = .hidden then h.after S .show else (true, h) := by
  unfold reveal
  split
  · next hw => exact h.call_eq S .show .visible rfl hw.symm
  · rfl

/-- a call to close ends the window whether it succeeds or not -/
theorem close_eq (S : Surface τ ε) (h : WindowHost τ) : ((h.close S).1.isOk, (h.close S).2) =
    if h.window = .closed then (true, h) else h.after S .close := by
  unfold close
  split
  · rfl
  · exact call_eq S { h with window := .closed } .close .closed rfl rfl

theorem draw_eq (S : Surface τ ε) (h : WindowHost τ) (lines : List String) :
    ((h.draw S lines).1.isOk, (h.draw S lines).2) =
      if h.window = .visible then h.after S (.draw lines) else (true, h) := by
  unfold draw
  split
  · next hw =>
    rw [← h.call_eq S (.draw lines) .visible rfl hw.symm]
    cases h.call S (.draw lines) .visible with
    | mk result host =>
      cases result with
      | ok _ => rfl
      | error e => rfl
  · rfl

/-- **An operation makes its call, if it has one, and goes on with the result**; without a call it succeeds
and changes nothing. -/
theorem Op.apply_eq (S : Surface τ ε) (h : WindowHost τ) (op : Op) : op.apply S h =
    match op.call? h with
    | some c => h.after S c
    | none => (true, h) := by
  cases op with
  | create =>
    rw [apply, create_eq, call?]
    split <;> rfl
  | event e =>
    cases e with
    | readyToShow =>
      refine (h.reveal_eq S).trans ?_
      rw [call?]
      split <;> rfl
    | closed =>
      refine (h.close_eq S).trans ?_
      rw [call?]
      split <;> rfl
    | activate =>
      refine (h.handle_activate S).trans ?_
      rw [create_eq, call?]
      split <;> rfl
  | draw lines =>
    rw [apply, draw_eq, call?]
    split <;> rfl

/-- an operation makes a call only in a state that permits it -/
theorem Op.permits_of_call? {h : WindowHost τ} {op : Op} {c : SurfaceCall} (hc : op.call? h = some c) :
    h.window.permits c = true := by
  unfold call? at hc
  split at hc
  all_goals
    split at hc
    all_goals cases hc
  · next hw => rw [hw]; rfl
  · next hw => rw [hw]; rfl
  · next hw => rw [hw]; rfl
  · next hw =>
    cases hstate : h.window with
    | closed => exact absurd hstate hw
    | hidden => rfl
    | visible => rfl
  · next hw => rw [hw]; rfl

/-! ## what operations keep -/

section Recorded

variable (S : Surface τ ε) (h : WindowHost (τ × SurfaceTrace))

theorem trace_after (c : SurfaceCall) :
    (h.after S.recorded c).2.trace = h.trace ++ [(c, (h.after S.recorded c).1)] := rfl

/-- an operation adds the call that it makes, with its result, and no other -/
theorem Op.trace_apply (op : Op) : (op.apply S.recorded h).2.trace =
    h.trace ++ ((op.call? h).map fun c => (c, (op.apply S.recorded h).1)).toList := by
  rw [apply_eq]
  cases op.call? h with
  | none => simp
  | some c => exact h.trace_after S c

theorem Op.forget_apply (op : Op) : (op.apply S.recorded h).1 = (op.apply S h.forget).1 ∧
    (op.apply S.recorded h).2.forget = (op.apply S h.forget).2 := by
  have hcall : op.call? h.forget = op.call? h := by
    cases op with
    | create => rfl
    | event e => cases e <;> rfl
    | draw lines => rfl
  rw [apply_eq, apply_eq, hcall]
  cases op.call? h with
  | none => exact ⟨rfl, rfl⟩
  | some c => exact ⟨rfl, rfl⟩

/-- **A record changes nothing else**: a run on a surface that keeps its calls is one on the surface. -/
theorem run_recorded (ops : List Op) : (h.run S.recorded ops).forget = h.forget.run S ops := by
  induction ops generalizing h with
  | nil => rfl
  | cons op ops ih =>
    show (run S.recorded (op.apply S.recorded h).2 ops).forget = run S (op.apply S h.forget).2 ops
    rw [ih, (op.forget_apply S h).2]

end Recorded

/-- the window is the one that follows from the calls, and every call was permitted -/
structure Orderly (h : WindowHost (τ × SurfaceTrace)) : Prop where
  window : h.window = h.trace.window
  lawful : h.trace.Lawful

theorem Orderly.new (options : WindowSettings) (surface : τ) :
    Orderly (WindowHost.new options (surface, [])) :=
  ⟨rfl, .nil⟩

variable {h : WindowHost (τ × SurfaceTrace)}

theorem Orderly.apply (ho : Orderly h) (S : Surface τ ε) (op : Op) :
    Orderly (op.apply S.recorded h).2 := by
  rw [op.apply_eq]
  cases hc : op.call? h with
  | none => exact ho
  | some c =>
    have hpermits := Op.permits_of_call? hc
    rw [ho.window] at hpermits
    refine ⟨?_, ?_⟩
    · rw [trace_after, SurfaceTrace.window_concat]
      rfl
    · rw [trace_after]
      exact ho.lawful.concat hpermits

/-- **Any operations keep it**, whichever calls fail. -/
theorem Orderly.run (ho : Orderly h) (S : Surface τ ε) (ops : List Op) :
    Orderly (h.run S.recorded ops) := by
  induction ops generalizing h with
  | nil => exact ho
  | cons op ops ih => exact ih (ho.apply S op)

end WindowHost

end DeskClock
