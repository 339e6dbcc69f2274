import DeskClock.Clock.Tick
import Mathlib

/-!
# the history of a service

* `Event`            an attempt to start a request, or a reply that reaches the service;
* `Event.latest?`    how the latest attempt went, and the replies since;
* `Event.outcome`    what there is to report of it;
* `NeverReplaced`    no attempt is made while an accepted one has no reply;
* `History`          events with the times of their ticks; `History.attempts` are the times at which
                     attempts were made, `History.accepted` whether they were accepted;
* `Turn`             what happens to a service in a tick, and what it may be (`Turn.Follows`);
* `awaited`, `answered`, `attempted?`   the replies that reach a client, the client after them, and the
                     request that it starts; `Turn.follows`: they are such a turn;
* `Reports`          what a service knows is what its history says; it remains so over a turn.
-/

namespace DeskClock

variable {ρ : Type}

/-- what happens to a service -/
inductive Event (ρ : Type) where
  /-- it asks for something, and the request is accepted or refused -/
  | attempt (accepted : Bool)
  /-- a reply reaches it -/
  | reply (r : ρ)

namespace Event

def isAttempt : Event ρ → Bool
  | attempt _ => true
  | reply _ => false

/-- whether an attempt was accepted -/
def accepted? : Event ρ → Option Bool
  | attempt accepted => some accepted
  | reply _ => none

def next : Option (Bool × List ρ) → Event ρ → Option (Bool × List ρ)
  | _, attempt accepted => some (accepted, [])
  | latest, reply r => latest.map fun l => (l.1, l.2 ++ [r])

/-- whether the latest attempt was accepted, and the replies since then -/
def latest? (es : List (Event ρ)) : Option (Bool × List ρ) := es.foldl next none

/-- what a reply means -/
def resultOf (ok : ρ → Bool) (r : ρ) : OperationState := if ok r then .success else .error

/-- what the last of some replies means; without a reply things stay as they are -/
def afterReplies (ok : ρ → Bool) (state : OperationState) (replies : List ρ) : OperationState :=
  (replies.getLast?.map (resultOf ok)).getD state

/-- the outcome of the latest attempt: none was made, it was refused, it has no reply yet, or what its
last reply means -/
def outcome (ok : ρ → Bool) (es : List (Event ρ)) : OperationState :=
  match latest? es with
  | none => .idle
  | some (false, _) => .error
  | some (true, replies) => afterReplies ok .inProcess replies

theorem latest?_attempt (es : List (Event ρ)) (accepted : Bool) :
    latest? (es ++ [attempt accepted]) = some (accepted, []) := by
  rw [latest?, List.foldl_append]
  rfl

theorem latest?_reply (es : List (Event ρ)) (r : ρ) :
    latest? (es ++ [reply r]) = (latest? es).map fun l => (l.1, l.2 ++ [r]) := by
  rw [latest?, List.foldl_append]
  rfl

theorem latest?_replies {es : List (Event ρ)} {accepted : Bool} {before : List ρ}
    (h : latest? es = some (accepted, before)) (replies : List ρ) :
    latest? (es ++ replies.map reply) = some (accepted, before ++ replies) := by
  induction replies generalizing es before with
  | nil => rw [List.map_nil, List.append_nil, List.append_nil, h]
  | cons r replies ih =>
    have h1 : latest? (es ++ [reply r]) = some (accepted, before ++ [r]) := by
      rw [latest?_reply, h]
      rfl
    have h2 := ih h1
    rw [List.append_assoc, List.append_assoc] at h2
    exact h2

theorem outcome_attempt (ok : ρ → Bool) (es : List (Event ρ)) (accepted : Bool) :
    outcome ok (es ++ [attempt accepted]) = if accepted then .inProcess else .error := by
  rw [outcome, latest?_attempt]
  cases accepted with
  | true => rfl
  | false => rfl

theorem afterReplies_cons (ok : ρ → Bool) (state : OperationState) (r : ρ) (replies : List ρ) :
    afterReplies ok state (r :: replies) = afterReplies ok (resultOf ok r) replies := by
  rw [afterReplies, afterReplies]
  cases replies with
  | nil => rfl
  | cons r' replies => rw [List.getLast?_cons_cons, List.getLast?_eq_some_getLast (List.cons_ne_nil _ _)]; rfl

theorem afterReplies_map {ρ' : Type} (ok : ρ' → Bool) (f : ρ → ρ') (state : OperationState)
    (replies : List ρ) : afterReplies ok state (replies.map f) = afterReplies (ok ∘ f) state replies := by
  rw [afterReplies, afterReplies, List.getLast?_map, Option.map_map]
  rfl

theorem afterReplies_ne_inProcess {ok : ρ → Bool} {state : OperationState} {replies : List ρ}
    (h : replies ≠ []) : afterReplies ok state replies ≠ .inProcess := by
  rw [afterReplies, List.getLast?_eq_some_getLast h]
  show resultOf ok (replies.getLast h) ≠ .inProcess
  unfold resultOf
  split
  · exact fun e => by cases e
  · exact fun e => by cases e

/-- a request is pending if it was accepted and has no reply yet -/
theorem latest?_of_inProcess {ok : ρ → Bool} {es : List (Event ρ)}
    (h : outcome ok es = .inProcess) : latest? es = some (true, []) := by
  rw [outcome] at h
  cases hl : latest? es with
  | none =>
    rw [hl] at h
    cases h
  | some l =>
    obtain ⟨accepted, replies⟩ := l
    rw [hl] at h
    cases accepted with
    | false => cases h
    | true =>
      by_cases hr : replies = []
      · rw [hr]
      · exact absurd h (afterReplies_ne_inProcess hr)

theorem outcome_replies {ok : ρ → Bool} {es : List (Event ρ)} (h : outcome ok es = .inProcess)
    (replies : List ρ) : outcome ok (es ++ replies.map reply) = afterReplies ok .inProcess replies := by
  rw [outcome, latest?_replies (latest?_of_inProcess h), List.nil_append]

end Event

open Event

/-! ## no pending request is replaced -/

/-- between an accepted attempt and the next attempt there is a reply -/
def NeverReplaced (es : List (Event ρ)) : Prop :=
  ∀ before between after accepted,
    es = before ++ attempt true :: (between ++ attempt accepted :: after) →
    ∃ r, reply r ∈ between

theorem NeverReplaced.of_forall_not {es : List (Event ρ)} (h : ∀ e ∈ es, e.isAttempt = false) :
    NeverReplaced es := by
  intro before between after accepted hs
  have he := h (attempt true) (by rw [hs]; exact List.mem_append_right _ List.mem_cons_self)
  cases he

theorem NeverReplaced.nil : NeverReplaced ([] : List (Event ρ)) :=
  .of_forall_not fun _ h => by cases h

/-- one more event changes nothing about the attempts before it -/
theorem NeverReplaced.concat {es : List (Event ρ)} (h : NeverReplaced es) {e : Event ρ}
    (he : ∀ before between accepted, e = attempt accepted →
      es = before ++ attempt true :: between → ∃ r, reply r ∈ between) :
    NeverReplaced (es ++ [e]) := by
  intro before between after accepted hs
  rcases List.eq_nil_or_concat after with rfl | ⟨after, last, rfl⟩
  · have hs' : es ++ [e] = (before ++ attempt true :: between) ++ [attempt accepted] := by
      rw [hs, List.append_assoc, List.cons_append]
    obtain ⟨h1, h2⟩ := List.append_inj' hs' rfl
    exact he before between accepted (List.cons.inj h2).1 h1
  · have hs' : es ++ [e] =
        (before ++ attempt true :: (between ++ attempt accepted :: after)) ++ [last] := by
      rw [hs, List.concat_eq_append]
      simp only [List.append_assoc, List.cons_append]
    exact h before between after accepted (List.append_inj' hs' rfl).1

theorem NeverReplaced.reply {es : List (Event ρ)} (h : NeverReplaced es) (r : ρ) :
    NeverReplaced (es ++ [reply r]) :=
  h.concat fun _ _ _ e _ => by cases e

theorem NeverReplaced.replies {es : List (Event ρ)} (h : NeverReplaced es) (replies : List ρ) :
    NeverReplaced (es ++ replies.map Event.reply) := by
  induction replies generalizing es with
  | nil =>
    rw [List.map_nil, List.append_nil]
    exact h
  | cons r replies ih =>
    have h' := ih (h.reply r)
    rw [List.append_assoc] at h'
    exact h'

/-- an attempt may follow if no request is pending -/
theorem NeverReplaced.attempt (ok : ρ → Bool) {es : List (Event ρ)} (h : NeverReplaced es)
    (hp : outcome ok es ≠ .inProcess) (accepted : Bool) : NeverReplaced (es ++ [attempt accepted]) := by
  refine h.concat fun before between _ _ hs => ?_
  cases between with
  | nil =>
    refine absurd ?_ hp
    rw [hs, outcome_attempt]
    rfl
  | cons e between =>
    cases e with
    | reply r => exact ⟨r, List.mem_cons_self⟩
    | attempt x =>
      obtain ⟨r, hr⟩ := h before [] between x hs
      cases hr

/-! ## histories and turns -/

/-- events with the times of their ticks, the earliest first -/
abbrev History (ρ : Type) := List (Instant × Event ρ)

/-- the events without their times -/
def History.events (h : History ρ) : List (Event ρ) := h.map Prod.snd

/-- the times at which attempts were made -/
def History.attempts (h : History ρ) : List Instant :=
  (h.filter fun e => e.2.isAttempt).map Prod.fst

/-- whether these attempts were accepted -/
def History.accepted (h : History ρ) : List Bool := h.events.filterMap accepted?

theorem History.attempts_append (h h' : History ρ) : (h ++ h').attempts = h.attempts ++ h'.attempts := by
  show ((h ++ h').filter _).map Prod.fst = _
  rw [List.filter_append, List.map_append]
  rfl

def History.lastAttempt? (h : History ρ) : Option Instant := h.attempts.getLast?

/-- what happens to a service in a tick: some replies, then an attempt or none -/
structure Turn (ρ : Type) where
  replies : List ρ
  attempt? : Option Bool

namespace Turn

def none : Turn ρ := ⟨[], .none⟩

def events (t : Turn ρ) : List (Event ρ) := t.replies.map reply ++ (t.attempt?.map attempt).toList

def history (t : Turn ρ) (now : Instant) : History ρ := t.events.map fun e => (now, e)

theorem events_append (h : History ρ) (t : Turn ρ) (now : Instant) :
    History.events (h ++ t.history now) = h.events ++ t.events := by
  have ht : (t.history now).map Prod.snd = t.events := by
    rw [history, List.map_map]
    exact List.map_id _
  rw [History.events, List.map_append, ht]
  rfl

theorem filterMap_accepted? (t : Turn ρ) : t.events.filterMap accepted? = t.attempt?.toList := by
  have hreplies : (t.replies.map reply).filterMap accepted? = [] := by
    rw [List.filterMap_map]
    exact List.filterMap_eq_nil_iff.mpr fun _ _ => rfl
  rw [events, List.filterMap_append, hreplies, List.nil_append]
  cases t.attempt? with
  | none => rfl
  | some accepted => rfl

theorem accepted_append (h : History ρ) (t : Turn ρ) (now : Instant) :
    History.accepted (h ++ t.history now) = h.accepted ++ t.attempt?.toList := by
  rw [History.accepted, events_append, List.filterMap_append, filterMap_accepted?]
  rfl

/-- a turn with what becomes of its replies -/
def map {υ : Type} (f : ρ → υ) (t : Turn ρ) : Turn υ := ⟨t.replies.map f, t.attempt?⟩

end Turn

/-- what a service knows of its requests -/
structure Progress where
  state : OperationState
  lastAttempt : Option Instant

/-- what a service knows after a turn; an attempt counts whether it is accepted or refused -/
def Turn.progress (t : Turn ρ) (ok : ρ → Bool) (now : Instant) (p : Progress) : Progress where
  state := (t.attempt?.map fun accepted =>
    if accepted then OperationState.inProcess else .error).getD (afterReplies ok p.state t.replies)
  lastAttempt := if t.attempt?.isSome then some now else p.lastAttempt

/-- Replies come only while a request is pending. An attempt is made exactly if there is a client, no
request is pending any more and one is due. -/
structure Turn.Follows (t : Turn ρ) (ok : ρ → Bool) (interval : Duration) (now : Instant)
    (hasClient : Bool) (p : Progress) : Prop where
  replies : t.replies ≠ [] → p.state = .inProcess
  attempt : t.attempt?.isSome = true ↔ hasClient = true ∧
    afterReplies ok p.state t.replies ≠ .inProcess ∧ isDue p.lastAttempt now interval = true

section Map

variable {υ : Type} (f : ρ → υ) (t : Turn ρ) (ok : υ → Bool) (now : Instant) (p : Progress)

theorem Turn.progress_map : (t.map f).progress ok now p = t.progress (ok ∘ f) now p := by
  rw [progress, progress, map, afterReplies_map]

theorem Turn.follows_map (interval : Duration) (hasClient : Bool) :
    (t.map f).Follows ok interval now hasClient p ↔ t.Follows (ok ∘ f) interval now hasClient p := by
  have hstate := afterReplies_map ok f p.state t.replies
  constructor
  · rintro ⟨hreplies, hattempt⟩
    refine ⟨fun hne => hreplies (List.map_eq_nil_iff.not.mpr hne), ?_⟩
    rw [← hstate]
    exact hattempt
  · rintro ⟨hreplies, hattempt⟩
    refine ⟨fun hne => hreplies (List.map_eq_nil_iff.not.mp hne), ?_⟩
    rw [map, hstate]
    exact hattempt

end Map

/-- the replies that reach a client while a request is pending -/
def awaited {γ : Type} (client : Option γ) (state : OperationState) (replies : γ → List ρ) : List ρ :=
  match client with
  | some client => if state = .inProcess then replies client else []
  | none => []

/-- the client after the replies; while a request is pending they are taken from it -/
def answered {γ : Type} (client : Option γ) (state : OperationState) (take : γ → γ) : Option γ :=
  if state = .inProcess then client.map take else client

theorem isSome_answered {γ : Type} (client : Option γ) (state : OperationState) (take : γ → γ) :
    (answered client state take).isSome = client.isSome := by
  unfold answered
  split
  · exact Option.isSome_map
  · rfl

/-- a client that nothing is taken from -/
theorem answered_eq {γ : Type} {client : Option γ} {take : γ → γ}
    (h : ∀ x, client = some x → take x = x) (state : OperationState) :
    answered client state take = client := by
  unfold answered
  split
  · cases client with
    | none => rfl
    | some x => rw [Option.map_some, h x rfl]
  · rfl

/-- the request that a client starts: whether it is accepted -/
def attempted? {γ : Type} (client : Option γ) (p : Progress) (interval : Duration) (now : Instant)
    (accepts : γ → Bool) : Option Bool :=
  match client with
  | some client =>
    if p.state ≠ .inProcess ∧ isDue p.lastAttempt now interval then some (accepts client) else none
  | none => none

theorem Turn.follows {γ : Type} (client : Option γ) (take : γ → γ) (ok : ρ → Bool)
    (interval : Duration) (now : Instant) (p : Progress) (replies : γ → List ρ) (accepts : γ → Bool) :
    (⟨awaited client p.state replies,
      attempted? (answered client p.state take)
        ⟨afterReplies ok p.state (awaited client p.state replies), p.lastAttempt⟩ interval now
        accepts⟩ : Turn ρ).Follows ok interval now client.isSome p := by
  constructor
  · intro hne
    by_contra hs
    apply hne
    unfold awaited
    split
    · exact if_neg hs
    · rfl
  · rw [← isSome_answered client p.state take]
    dsimp only
    generalize afterReplies ok p.state (awaited client p.state replies) = state
    generalize answered client p.state take = client
    unfold attempted?
    cases client with
    | none => exact ⟨fun e => (by cases e), fun e => (by cases e.1)⟩
    | some client =>
      dsimp only
      split
      · next hd => exact ⟨fun _ => ⟨rfl, hd⟩, fun _ => rfl⟩
      · next hd => exact ⟨fun e => (by cases e), fun e => absurd e.2 hd⟩

/-- what a service knows of its requests is what its history says -/
structure Reports (ok : ρ → Bool) (h : History ρ) (p : Progress) : Prop where
  state : p.state = outcome ok h.events
  lastAttempt : p.lastAttempt = h.lastAttempt?
  neverReplaced : NeverReplaced h.events

theorem Reports.nil (ok : ρ → Bool) : Reports ok [] ⟨.idle, none⟩ := ⟨rfl, rfl, .nil⟩

namespace Turn

variable {t : Turn ρ} {ok : ρ → Bool} {interval : Duration} {now : Instant} {hasClient : Bool}
  {p : Progress} {h : History ρ}

theorem outcome_replies (hf : t.Follows ok interval now hasClient p) (hr : Reports ok h p) :
    outcome ok (h.events ++ t.replies.map reply) = afterReplies ok p.state t.replies := by
  by_cases hn : t.replies = []
  · rw [hn, List.map_nil, List.append_nil, hr.state]
    rfl
  · have hs := hf.replies hn
    rw [hs]
    rw [hr.state] at hs
    exact Event.outcome_replies hs t.replies

theorem attempts_history (t : Turn ρ) (now : Instant) :
    (t.history now).attempts = (t.attempt?.map fun _ => now).toList := by
  have hreplies : ((t.replies.map reply).map fun e => (now, e)).filter (fun e => e.2.isAttempt) = [] := by
    rw [List.filter_eq_nil_iff]
    intro e he
    obtain ⟨e', he', rfl⟩ := List.mem_map.mp he
    obtain ⟨r, -, rfl⟩ := List.mem_map.mp he'
    exact Bool.false_ne_true
  rw [History.attempts, history, events, List.map_append, List.filter_append, hreplies, List.nil_append]
  cases t.attempt? with
  | none => rfl
  | some accepted => rfl

theorem lastAttempt?_append (h : History ρ) (t : Turn ρ) (now : Instant) :
    History.lastAttempt? (h ++ t.history now)
      = if t.attempt?.isSome then some now else h.lastAttempt? := by
  rw [History.lastAttempt?, History.attempts_append, attempts_history]
  cases t.attempt? with
  | none => exact congrArg List.getLast? (List.append_nil h.attempts)
  | some accepted => exact List.getLast?_concat

/-- **A service that reports its history goes on to do so.** -/
theorem Follows.reports (hf : t.Follows ok interval now hasClient p) (hr : Reports ok h p) :
    Reports ok (h ++ t.history now) (t.progress ok now p) := by
  have hevents : (h ++ t.history now).events
      = h.events ++ t.replies.map reply ++ (t.attempt?.map Event.attempt).toList := by
    rw [events_append, events, List.append_assoc]
  have ho := outcome_replies hf hr
  have hnever := hr.neverReplaced.replies t.replies
  refine ⟨?_, ?_, ?_⟩
  · rw [progress, hevents]
    cases ha : t.attempt? with
    | none => exact (List.append_nil _).symm ▸ ho.symm
    | some accepted => exact (outcome_attempt ok _ accepted).symm
  · rw [progress, hr.lastAttempt, lastAttempt?_append]
  · rw [hevents]
    cases ha : t.attempt? with
    | none => exact (List.append_nil _).symm ▸ hnever
    | some accepted =>
      refine hnever.attempt ok ?_ accepted
      rw [ho]
      exact (hf.attempt.mp (by rw [ha]; rfl)).2.1

end Turn

end DeskClock
