import DeskClock.Proofs.Clock.Life

/-!
# the queues of the clients

* `NtpReply.Means`, `WeatherReply.Means`   what the replies of the library mean to the clients;
* `Ledger`                  the replies that have arrived at a client, and the updates taken from it;
* `Ledger.Complete`         the updates taken and those that wait are what the replies mean, in order;
                            `Complete.receive`, `Complete.take`: it remains so;
* `NtpClient.KeptBy`, `WeatherClient.KeptBy`   a ledger tells what the queue of a client is;
                            `KeptBy.receiveAll`, `KeptBy.poll`: it remains so;
* `NtpClient.InUse`, `WeatherClient.InUse`     a client with its session and its ledger;
* `NtpClient.Op`, `WeatherClient.Op`           what can happen to it, in any order;
* `Op.apply_keptBy`, `run_keptBy`              whatever happens, the ledger tells what the queue is.
-/

namespace DeskClock

open Native

variable {σ τ ε ρ υ : Type}

/-! ## what replies mean -/

theorem Instant.ofSeconds?_eq_some_iff (seconds : Int) (t : Instant) :
    ofSeconds? seconds = some t ↔ t.seconds = seconds ∧ t.nanosecond = 0 := by
  unfold ofSeconds? of?
  constructor
  · intro h
    split at h
    · split at h
      · obtain rfl := Option.some.inj h
        exact ⟨rfl, rfl⟩
      · cases h
    · cases h
  · obtain ⟨seconds', nanosecond, hs, hn⟩ := t
    rintro ⟨rfl, rfl⟩
    rw [dif_pos hs, dif_pos (show (0 : Nat) < 1000000000 ∨ _ from .inl (by decide))]

/-- What a reply means to a time client. A successful one has the time of the server if there is an instant
at that second, any other one has no time. -/
inductive Native.NtpReply.Means (reply : NtpReply) : NtpUpdate → Prop
  | success {time? : Option Instant} (hcode : reply.code = 0)
      (htime : ∀ t, time? = some t ↔ t.seconds = reply.time ∧ t.nanosecond = 0) :
      Means reply ⟨.success, time?⟩
  | timeout (hcode : reply.code = 1) : Means reply ⟨.timeout, none⟩
  | failed (hsuccess : reply.code ≠ 0) (htimeout : reply.code ≠ 1) :
      Means reply ⟨.failed reply.code, none⟩

theorem NtpUpdate.means_ofReply (reply : NtpReply) : reply.Means (ofReply reply) := by
  unfold ofReply NtpResult.ofCode
  by_cases hsuccess : reply.code = 0
  · rw [if_pos hsuccess]
    exact .success hsuccess (Instant.ofSeconds?_eq_some_iff reply.time)
  · by_cases htimeout : reply.code = 1
    · rw [if_neg hsuccess, if_pos htimeout]
      exact .timeout htimeout
    · rw [if_neg hsuccess, if_neg htimeout]
      exact .failed hsuccess htimeout

/-- What a reply means to a weather client, whose conditions are in a unit. -/
inductive Native.WeatherReply.Means (unit : TemperatureUnit) (reply : WeatherReply) : WeatherUpdate → Prop
  | conditions {record : WeatherRecord} (hcode : reply.code = 0) (hrecord : reply.record = some record) :
      Means unit reply (.conditions (record.conditions unit))
  | missing (hcode : reply.code = 0) (hrecord : reply.record = none) :
      Means unit reply (.failed .invalidData)
  | failed {outcome : WeatherOutcome} (hcode : reply.code = outcome.code)
      (hrange : 1 ≤ reply.code ∧ reply.code ≤ 3) : Means unit reply (.failed outcome)
  | unrecognized (hrange : reply.code < 0 ∨ 3 < reply.code) :
      Means unit reply (.unrecognized reply.code)

theorem WeatherUpdate.means_ofReply (unit : TemperatureUnit) (reply : WeatherReply) :
    reply.Means unit (ofReply unit reply) := by
  unfold ofReply WeatherOutcome.ofCode
  cases hfind : WeatherOutcome.all.find? (·.code == reply.code) with
  | none =>
    refine .unrecognized ?_
    rw [List.find?_eq_none] at hfind
    have hother : ∀ outcome ∈ WeatherOutcome.all, outcome.code ≠ reply.code := by simpa using hfind
    simp [WeatherOutcome.all, WeatherOutcome.code] at hother
    omega
  | some outcome =>
    have hcode : outcome.code = reply.code := beq_iff_eq.mp (List.find?_some hfind :)
    cases outcome with
    | success =>
      cases hrecord : reply.record with
      | some record => exact .conditions hcode.symm hrecord
      | none => exact .missing hcode.symm hrecord
    | unreachable => exact .failed hcode.symm (hcode ▸ by decide)
    | invalidData => exact .failed hcode.symm (hcode ▸ by decide)
    | timeout => exact .failed hcode.symm (hcode ▸ by decide)

/-! ## ledgers -/

/-- the replies that have arrived at a client, and the updates taken from its queue, the earliest first -/
structure Ledger (ρ υ : Type) where
  arrived : List ρ := []
  taken : List υ := []

namespace Ledger

variable (l : Ledger ρ υ)

/-- more replies arrive -/
def receive (replies : List ρ) : Ledger ρ υ := { l with arrived := l.arrived ++ replies }

/-- updates are taken from the queue -/
def take (updates : List υ) : Ledger ρ υ := { l with taken := l.taken ++ updates }

/-- the updates taken and those that wait are the translations of the replies, in order -/
def Complete (translate : ρ → υ) (queue : List υ) : Prop :=
  l.taken ++ queue = l.arrived.map translate

variable {l} {translate : ρ → υ} {queue : List υ}

theorem Complete.nil : ({} : Ledger ρ υ).Complete translate [] := rfl

/-- what arrives waits behind what is there -/
theorem Complete.receive (h : l.Complete translate queue) (replies : List ρ) :
    (l.receive replies).Complete translate (queue ++ replies.map translate) := by
  show l.taken ++ (queue ++ replies.map translate) = (l.arrived ++ replies).map translate
  rw [← List.append_assoc, h, List.map_append]

/-- all that waits is taken, and nothing else -/
theorem Complete.take (h : l.Complete translate queue) : (l.take queue).Complete translate [] := by
  show l.taken ++ queue ++ [] = l.arrived.map translate
  rw [List.append_nil, h]

theorem Complete.forall₂ {Means : ρ → υ → Prop} (hmeans : ∀ r, Means r (translate r))
    (h : l.Complete translate queue) : List.Forall₂ Means l.arrived (l.taken ++ queue) := by
  rw [h, List.forall₂_map_right_iff, List.forall₂_same]
  exact fun r _ => hmeans r

end Ledger

/-! ## clients in use -/

namespace NtpClient

variable {c : NtpClient} {l : Ledger NtpReply NtpUpdate}

/-- a ledger tells what the queue of a client is -/
def KeptBy (c : NtpClient) (l : Ledger NtpReply NtpUpdate) : Prop :=
  l.Complete NtpUpdate.ofReply c.queue

/-- replies arrive, those without a context nowhere -/
theorem KeptBy.receiveAll (h : c.KeptBy l) (replies : List NtpReply) :
    (c.receiveAll replies).KeptBy (l.receive (replies.filter (·.hasContext))) := by
  unfold KeptBy
  rw [Clock.receiveAll_eq]
  exact h.receive _

theorem KeptBy.poll (h : c.KeptBy l) : c.poll.2.KeptBy (l.take c.poll.1) := Ledger.Complete.take h

/-- a time client with its session, and with what has arrived and was taken since it was made -/
structure InUse (σ : Type) where
  client : NtpClient
  session : Session σ
  ledger : Ledger NtpReply NtpUpdate := {}

/-- what can happen to a time client; a reply may arrive at any time, and some arrive in `process` -/
inductive Op where
  | request (server : String) (timeout : Duration)
  | process
  | poll
  | reply (r : NtpReply)

variable (lib : Library σ)

def Op.apply (u : InUse σ) : Op → InUse σ
  | request server timeout => { u with session := (u.client.getTime lib server timeout u.session).2 }
  | process =>
    let answer := u.session.ask lib (.ntp (.process u.client.handle))
    { client := (u.client.process lib u.session).1
      session := (u.client.process lib u.session).2
      ledger := u.ledger.receive (answer.1.filter (·.hasContext)) }
  | poll => { u with client := u.client.poll.2, ledger := u.ledger.take u.client.poll.1 }
  | reply r =>
    { u with
      client := u.client.receive r
      ledger := u.ledger.receive ([r].filter (·.hasContext)) }

theorem Op.apply_keptBy {u : InUse σ} (h : u.client.KeptBy u.ledger) (op : Op) :
    (op.apply lib u).client.KeptBy (op.apply lib u).ledger := by
  cases op with
  | request server timeout => exact h
  | process => exact h.receiveAll _
  | poll => exact h.poll
  | reply r => exact h.receiveAll [r]

theorem run_keptBy {u : InUse σ} (h : u.client.KeptBy u.ledger) (ops : List Op) :
    (ops.foldl (Op.apply lib) u).client.KeptBy (ops.foldl (Op.apply lib) u).ledger := by
  induction ops generalizing u with
  | nil => exact h
  | cons op ops ih => exact ih (op.apply_keptBy lib h)

end NtpClient

namespace WeatherClient

variable {c : WeatherClient} {l : Ledger WeatherReply WeatherUpdate} {unit : TemperatureUnit}

/-- a ledger tells what the queue of a client with a unit is -/
structure KeptBy (unit : TemperatureUnit) (c : WeatherClient) (l : Ledger WeatherReply WeatherUpdate) :
    Prop where
  queue : l.Complete (WeatherUpdate.ofReply unit) c.queue
  sameUnit : c.unit = unit

/-- replies arrive, those without a context nowhere -/
theorem KeptBy.receiveAll (h : c.KeptBy unit l) (replies : List WeatherReply) :
    (c.receiveAll replies).KeptBy unit (l.receive (replies.filter (·.hasContext))) := by
  obtain ⟨hqueue, rfl⟩ := h
  rw [Clock.receiveAll_eq_weather]
  exact ⟨hqueue.receive _, rfl⟩

theorem KeptBy.poll (h : c.KeptBy unit l) : c.poll.2.KeptBy unit (l.take c.poll.1) :=
  ⟨h.queue.take, h.sameUnit⟩

/-- a weather client with its session, and with what has arrived and was taken since it was made -/
structure InUse (σ : Type) where
  client : WeatherClient
  session : Session σ
  ledger : Ledger WeatherReply WeatherUpdate := {}

/-- what can happen to a weather client -/
inductive Op where
  | request (location : GeoLocation) (timeout : Duration)
  | process
  | poll
  | reply (r : WeatherReply)

variable (lib : Library σ)

def Op.apply (u : InUse σ) : Op → InUse σ
  | request location timeout =>
    { u with session := (u.client.getByCity lib location timeout u.session).2 }
  | process =>
    let answer := u.session.ask lib (.weather (.process u.client.handle))
    { client := (u.client.process lib u.session).1
      session := (u.client.process lib u.session).2
      ledger := u.ledger.receive (answer.1.filter (·.hasContext)) }
  | poll => { u with client := u.client.poll.2, ledger := u.ledger.take u.client.poll.1 }
  | reply r =>
    { u with
      client := u.client.receive r
      ledger := u.ledger.receive ([r].filter (·.hasContext)) }

theorem Op.apply_keptBy {unit : TemperatureUnit} {u : InUse σ} (h : u.client.KeptBy unit u.ledger)
    (op : Op) : (op.apply lib u).client.KeptBy unit (op.apply lib u).ledger := by
  cases op with
  | request location timeout => exact h
  | process => exact h.receiveAll _
  | poll => exact h.poll
  | reply r => exact h.receiveAll [r]

theorem run_keptBy {unit : TemperatureUnit} {u : InUse σ} (h : u.client.KeptBy unit u.ledger)
    (ops : List Op) :
    (ops.foldl (Op.apply lib) u).client.KeptBy unit (ops.foldl (Op.apply lib) u).ledger := by
  induction ops generalizing u with
  | nil => exact h
  | cons op ops ih => exact ih (op.apply_keptBy lib h)

end WeatherClient

end DeskClock
