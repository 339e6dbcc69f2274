import DeskClock.Proofs.Native.Calls

/-!
# the objects of the library

* `Object`                 an object of the library: its service and its handle;
* `made`, `destroyed`      the objects that calls have made, and those that they have destroyed;
* `Lawful`                 every object is used and destroyed after it was made and before it is destroyed;
* `Owns`                   the objects that are held are those that were made and not destroyed;
* `Owns.uses`, `Owns.makes`, `Owns.destroys`   what becomes of them when calls are made.
-/

namespace DeskClock.Native

variable {σ : Type}

abbrev Object := Service × Handle

/-- the object of a service with a handle, if there is one -/
def objects (service : Service) (handle? : Option Handle) : List Object :=
  (handle?.map (service, ·)).toList

/-- the object that a deed needs -/
def Deed.object? : Deed → Option Object
  | .makes _ _ => none
  | .uses service h => some (service, h)
  | .destroys service h => some (service, h)
  | .sets => none

def Deed.destroyed? : Deed → Option Object
  | .destroys service h => some (service, h)
  | _ => none

/-- the objects that calls have made, in the order of the calls -/
def made (log : List Exchange) : List Object := log.filterMap Exchange.made?

/-- the objects that calls have destroyed, in the order of the calls -/
def destroyed (log : List Exchange) : List Object := log.filterMap (·.1.deed.destroyed?)

/-- every object is used and destroyed after it was made and before it is destroyed -/
def Lawful (log : List Exchange) : Prop :=
  ∀ before e after, log = before ++ e :: after →
    ∀ o, e.1.deed.object? = some o → o ∈ made before ∧ o ∉ destroyed before

section Log

variable {log : List Exchange} {e : Exchange}

theorem made_concat : made (log ++ [e]) = made log ++ e.made?.toList := by
  rw [made, made, List.filterMap_append, List.filterMap_eq_flatMap_toList _ [e], List.flatMap_singleton]

theorem destroyed_concat : destroyed (log ++ [e]) = destroyed log ++ e.1.deed.destroyed?.toList := by
  rw [destroyed, destroyed, List.filterMap_append, List.filterMap_eq_flatMap_toList _ [e],
    List.flatMap_singleton]

theorem Lawful.nil : Lawful [] := by
  intro before e after h
  cases List.append_ne_nil_of_right_ne_nil before (List.cons_ne_nil e after) h.symm

theorem Lawful.concat (h : Lawful log)
    (he : ∀ o, e.1.deed.object? = some o → o ∈ made log ∧ o ∉ destroyed log) : Lawful (log ++ [e]) := by
  intro before e' after hlog
  rcases List.eq_nil_or_concat' after with rfl | ⟨after, last, rfl⟩
  · obtain ⟨rfl, heq⟩ := List.append_inj' hlog rfl
    cases heq
    exact he
  · rw [← List.cons_append, ← List.append_assoc] at hlog
    exact h before e' after (List.append_inj' hlog rfl).1

/-- an object is made by a call for it only -/
theorem made?_eq_none (h : ∀ service handle, e.1.deed ≠ .makes service handle) : e.made? = none := by
  obtain ⟨r, answer⟩ := e
  have h : ∀ service handle, r.deed ≠ .makes service handle := h
  match r, h with
  | .ntp (.create _), h => exact absurd rfl (h _ _)
  | .ntp (.destroy _), _ => rfl
  | .ntp (.getTime _ _ _), _ => rfl
  | .ntp (.process _), _ => rfl
  | .ntp (.setTime _ _), _ => rfl
  | .weather (.create _ _ _), h => exact absurd rfl (h _ _)
  | .weather (.destroy _), _ => rfl
  | .weather (.getByCity _ _ _), _ => rfl
  | .weather (.process _), _ => rfl
  | .alarms (.create _), h => exact absurd rfl (h _ _)
  | .alarms (.destroy _), _ => rfl
  | .alarms (.add _ _ _ _ _), _ => rfl
  | .alarms (.remove _ _), _ => rfl
  | .alarms (.next _), _ => rfl

/-- what a call for an object makes, if it makes one -/
theorem eq_of_made? {service : Service} {handle : Handle} {o : Object}
    (hdeed : e.1.deed = .makes service handle) (h : e.made? = some o) : o = (service, handle) := by
  obtain ⟨r, answer⟩ := e
  have hdeed : r.deed = .makes service handle := hdeed
  match r, answer, hdeed, h with
  | .ntp (.create _), true, rfl, h => exact (Option.some.inj h).symm
  | .weather (.create _ _ _), true, rfl, h => exact (Option.some.inj h).symm
  | .alarms (.create _), true, rfl, h => exact (Option.some.inj h).symm

/-- the next handle of a service counts the objects that it has made -/
theorem Session.nextHandle_eq (s : Session σ) (service : Service) :
    s.nextHandle service = ((made s.log).filter (·.1 == service)).length + 1 := by
  rw [nextHandle, made, ← List.countP_eq_length_filter, ← List.countP_eq_length_filter,
    List.countP_filterMap]
  refine congrArg (· + 1) (List.countP_congr fun e _ => ?_)
  cases e.made? with
  | none => exact Iff.rfl
  | some o => exact Iff.rfl

end Log

/-- After some calls, these objects were made, these were destroyed and these are held: every object once,
none in two ways, and with handles that the services have given out. -/
structure Owns (made destroyed held : List Object) (s : Session σ) : Prop where
  made_eq : Native.made s.log = made
  destroyed_eq : Native.destroyed s.log = destroyed
  lawful : Lawful s.log
  distinct : made.Nodup
  balance : (destroyed ++ held).Perm made
  numbered : ∀ service handle, (service, handle) ∈ made →
    handle ≤ (made.filter (·.1 == service)).length

namespace Owns

variable {made destroyed held held' : List Object} {s s' : Session σ} {o : Object}

theorem new (state : σ) : Owns [] [] [] (Session.new state) where
  made_eq := rfl
  destroyed_eq := rfl
  lawful := .nil
  distinct := .nil
  balance := .nil
  numbered _ _ h := nomatch h

theorem perm (h : Owns made destroyed held s) (hp : held.Perm held') : Owns made destroyed held' s :=
  { h with balance := (hp.symm.append_left destroyed).trans h.balance }

/-- what is held can be used -/
theorem live (h : Owns made destroyed held s) (ho : o ∈ held) :
    o ∈ Native.made s.log ∧ o ∉ Native.destroyed s.log := by
  rw [h.made_eq, h.destroyed_eq]
  refine ⟨h.balance.subset (List.mem_append_right _ ho), fun hd => ?_⟩
  exact (List.nodup_append.mp (h.balance.nodup_iff.mpr h.distinct)).2.2 o hd o ho rfl

/-- a call on what is held, or on nothing -/
theorem use {e : Exchange} (h : Owns made destroyed held s) (hlog : s'.log = s.log ++ [e])
    (he : e.1.deed = .sets ∨ ∃ o ∈ held, e.1.deed = .uses o.1 o.2) : Owns made destroyed held s' := by
  have hmakes : e.made? = none := made?_eq_none fun service handle hdeed => by
    rcases he with he | ⟨o, -, he⟩ <;> cases he.symm.trans hdeed
  have hdestroys : e.1.deed.destroyed? = none := by
    rcases he with he | ⟨o, -, he⟩ <;> rw [he] <;> rfl
  have hmade : Native.made s'.log = made := by
    rw [hlog, made_concat, hmakes, h.made_eq]
    exact List.append_nil _
  refine ⟨hmade, ?_, ?_, h.distinct, h.balance, h.numbered⟩
  · rw [hlog, destroyed_concat, hdestroys, h.destroyed_eq]
    exact List.append_nil _
  · rw [hlog]
    refine h.lawful.concat fun o ho => ?_
    rcases he with he | ⟨o', ho', he⟩
    · rw [he] at ho
      cases ho
    · rw [he] at ho
      cases ho
      exact h.live ho'

/-- calls on what is held -/
theorem uses (h : Owns made destroyed held s)
    (hcalls : s.Extends (fun d => d = .sets ∨ ∃ o ∈ held, d = .uses o.1 o.2) s') :
    Owns made destroyed held s' := by
  obtain ⟨calls, hlog, hcalls⟩ := hcalls
  induction calls generalizing s with
  | nil =>
    rw [List.append_nil] at hlog
    exact { h with
      made_eq := by rw [hlog, h.made_eq]
      destroyed_eq := by rw [hlog, h.destroyed_eq]
      lawful := by rw [hlog]; exact h.lawful }
  | cons e calls ih =>
    have he : Owns made destroyed held (⟨s.state, s.log ++ [e]⟩ : Session σ) :=
      h.use rfl (hcalls e List.mem_cons_self)
    refine ih he ?_ fun e' h' => hcalls e' (List.mem_cons_of_mem e h')
    rw [hlog, List.append_assoc]
    rfl

/-- the next handle of a service was not given out before -/
theorem nextHandle_not_mem (h : Owns made destroyed held s) (service : Service) :
    (service, s.nextHandle service) ∉ made := by
  intro hmem
  have hle := h.numbered service _ hmem
  rw [Session.nextHandle_eq, h.made_eq] at hle
  exact Nat.not_succ_le_self _ hle

/-- a new object is held, if there is one -/
theorem makes {service : Service} {handle? : Option Handle} (h : Owns made destroyed held s)
    (hmakes : s.Makes service handle? s') :
    Owns (made ++ objects service handle?) destroyed (objects service handle? ++ held) s' := by
  rcases hmakes with ⟨hlog, rfl⟩ | ⟨e, hdeed, hlog, hmade⟩
  · rw [show objects service none = [] from rfl, List.append_nil, List.nil_append]
    exact h.uses ⟨[], by rw [hlog, List.append_nil], nofun⟩
  · have hmade' : Native.made s'.log = made ++ objects service handle? := by
      rw [hlog, made_concat, ← hmade, h.made_eq]
      rfl
    have hnew : ∀ o ∈ objects service handle?, o = (service, s.nextHandle service) := by
      intro o ho
      rw [objects, hmade] at ho
      exact eq_of_made? hdeed (Option.mem_toList.mp ho)
    have hnext : s.nextHandle service = (made.filter (·.1 == service)).length + 1 := by
      rw [Session.nextHandle_eq, h.made_eq]
    have hfresh : (service, s.nextHandle service) ∉ made := h.nextHandle_not_mem service
    refine ⟨hmade', ?_, ?_, ?_, ?_, ?_⟩
    · rw [hlog, destroyed_concat, hdeed, h.destroyed_eq]
      exact List.append_nil _
    · rw [hlog]
      refine h.lawful.concat fun o ho => ?_
      rw [hdeed] at ho
      cases ho
    · refine List.nodup_append.mpr ⟨h.distinct, ?_, ?_⟩
      · cases handle? with
        | none => exact .nil
        | some handle => exact List.nodup_singleton _
      · rintro o hm _ ho rfl
        exact hfresh (hnew o ho ▸ hm)
    · exact (List.perm_append_comm_assoc _ _ _).trans
        (List.perm_append_comm.trans (h.balance.append_right _))
    · intro service' handle hm
      rw [List.filter_append, List.length_append]
      rcases List.mem_append.mp hm with hm | ho
      · exact Nat.le_trans (h.numbered service' handle hm) (Nat.le_add_right _ _)
      · obtain ⟨rfl, rfl⟩ := Prod.mk.inj (hnew _ ho)
        rw [hnext]
        have hmem : (service', s.nextHandle service') ∈
            (objects service' handle?).filter (·.1 == service') :=
          List.mem_filter.mpr ⟨ho, beq_self_eq_true service'⟩
        exact Nat.add_le_add_left (List.length_pos_of_mem hmem) _

/-- what is destroyed is held no longer -/
theorem destroys {e : Exchange} (h : Owns made destroyed (o :: held) s) (hlog : s'.log = s.log ++ [e])
    (he : e.1.deed = .destroys o.1 o.2) : Owns made (destroyed ++ [o]) held s' := by
  have hmakes : e.made? = none := made?_eq_none fun service handle hdeed => by
    cases he.symm.trans hdeed
  have hmade : Native.made s'.log = made := by
    rw [hlog, made_concat, hmakes, h.made_eq]
    exact List.append_nil _
  refine ⟨hmade, ?_, ?_, h.distinct, ?_, h.numbered⟩
  · rw [hlog, destroyed_concat, he, h.destroyed_eq]
    rfl
  · rw [hlog]
    refine h.lawful.concat fun o' ho => ?_
    rw [he] at ho
    cases ho
    exact h.live List.mem_cons_self
  · rw [List.append_assoc]
    exact h.balance

end Owns

end DeskClock.Native
