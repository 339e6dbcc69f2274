import DeskClock.Proofs.Text.Pieces
import DeskClock.Proofs.Window.Lifecycle
import DeskClock.Window.Terminal

/-!
# the rows on a terminal

* `Output.kept`          an output that keeps the texts it takes; `send_kept`: that is all it adds, and what
                         it keeps after a success is all that was sent;
* `Terminal.rows`        the rows of some lines, each cut to the width or set into the middle;
* `Terminal.printed`     rows as they are printed, each with a newline at its end;
* `draw_kept`            what a drawn frame adds to the output;
* `length_fit_le`        no row is longer than the width;
* `splitOn_printed_iff`  the newlines of what is printed give the rows back, unless a row has one itself;
* `WindowHost.Fitted`    a window that is there has the width of its options; `Fitted.run`: any operations
                         keep it.
-/

namespace DeskClock

variable {ω ε : Type}

/-! ## outputs that keep what they take -/

namespace Output

/-- an output that keeps the texts it takes -/
def kept (O : Output ω ε) : Output (ω × List Char) ε where
  write text out :=
    ((O.write text out.1).1,
     ((O.write text out.1).2, if (O.write text out.1).1.isOk then out.2 ++ text else out.2))
  flush out := ((O.flush out.1).1, ((O.flush out.1).2, out.2))

variable (O : Output ω ε)

theorem writeAll_kept (texts : List (List Char)) (out : ω) (text : List Char) :
    ∃ text', O.kept.writeAll texts (out, text)
        = ((O.writeAll texts out).1, ((O.writeAll texts out).2, text')) ∧
      ((O.writeAll texts out).1 = .ok () → text' = text ++ texts.flatten) := by
  induction texts generalizing out text with
  | nil => exact ⟨text, rfl, fun _ => by simp⟩
  | cons first texts ih =>
    unfold writeAll
    by_cases hempty : first.isEmpty = true
    · rw [if_pos hempty, if_pos hempty]
      obtain ⟨text', heq, hsent⟩ := ih out text
      refine ⟨text', heq, fun hok => ?_⟩
      rw [hsent hok, List.isEmpty_iff.mp hempty, List.flatten_cons, List.nil_append]
    · rw [if_neg hempty, if_neg hempty]
      cases hwrite : O.write first out with
      | mk result out₁ =>
        have hkept : O.kept.write first (out, text)
            = (result, (out₁, if result.isOk then text ++ first else text)) := by
          simp only [kept, hwrite]
        rw [hkept]
        cases result with
        | error e => exact ⟨text, rfl, fun h => by cases h⟩
        | ok _ =>
          obtain ⟨text', heq, hsent⟩ := ih out₁ (text ++ first)
          refine ⟨text', heq, fun hok => ?_⟩
          rw [hsent hok, List.flatten_cons, List.append_assoc]

/-- **A record changes nothing else**: an output that keeps its texts is the output, and what it has kept
after a success is all that was sent. -/
theorem send_kept (texts : List (List Char)) (out : ω) (text : List Char) :
    ∃ text', O.kept.send texts (out, text) = ((O.send texts out).1, ((O.send texts out).2, text')) ∧
      ((O.send texts out).1 = .ok () → text' = text ++ texts.flatten) := by
  obtain ⟨text', heq, hsent⟩ := O.writeAll_kept texts out text
  unfold send
  rw [heq]
  cases hwrite : O.writeAll texts out with
  | mk result out₁ =>
    rw [hwrite] at hsent
    cases result with
    | error e => exact ⟨text', rfl, fun h => by cases h⟩
    | ok _ => exact ⟨text', rfl, fun _ => hsent rfl⟩

/-- an output that takes every text -/
structure TakesAll : Prop where
  write : ∀ text out, (O.write text out).1 = .ok ()
  flush : ∀ out, (O.flush out).1 = .ok ()

variable {O}

theorem TakesAll.kept (h : O.TakesAll) : O.kept.TakesAll :=
  ⟨fun text out => h.write text out.1, fun out => h.flush out.1⟩

theorem TakesAll.writeAll (h : O.TakesAll) (texts : List (List Char)) (out : ω) :
    (O.writeAll texts out).1 = .ok () := by
  induction texts generalizing out with
  | nil => rfl
  | cons text texts ih =>
    unfold Output.writeAll
    split
    · exact ih out
    · have hwrite := h.write text out
      cases hcase : O.write text out with
      | mk result out₁ =>
        rw [hcase] at hwrite
        dsimp only at hwrite
        subst hwrite
        exact ih out₁

theorem TakesAll.send (h : O.TakesAll) (texts : List (List Char)) (out : ω) :
    (O.send texts out).1 = .ok () := by
  have hwrite := h.writeAll texts out
  unfold Output.send
  cases hcase : O.writeAll texts out with
  | mk result out₁ =>
    rw [hcase] at hwrite
    dsimp only at hwrite
    subst hwrite
    exact h.flush out₁

end Output

/-! ## rows -/

namespace Terminal

/-- the rows of some lines on a terminal of a width -/
def rows (columns : Nat) (lines : List String) : List (List Char) :=
  lines.map fun line => fit columns line.toList

/-- rows as they are printed -/
def printed (rows : List (List Char)) : List Char := rows.flatMap (· ++ ['\n'])

theorem printed_cons (row : List Char) (rows : List (List Char)) :
    printed (row :: rows) = row ++ '\n' :: printed rows := by
  simp [printed]

theorem length_fit_le (columns : Nat) (line : List Char) : (fit columns line).length ≤ columns := by
  unfold fit
  split
  · exact List.length_take_le columns line
  · next hshort =>
    rw [List.length_append, List.length_replicate]
    omega

/-- only what is left of a line is seen, and the blanks in front of it are no newlines -/
theorem newline_mem_fit (columns : Nat) (line : List Char) :
    '\n' ∈ fit columns line ↔ '\n' ∈ line.take columns := by
  unfold fit
  split
  · rfl
  · next hshort =>
    have hall : line.take columns = line := List.take_of_length_le (by omega)
    rw [hall, List.mem_append]
    simp [List.mem_replicate]

theorem splitOn_printed (rows : List (List Char)) :
    (printed rows).splitOn '\n' = rows.flatMap (List.splitOn '\n') ++ [[]] := by
  induction rows with
  | nil => rfl
  | cons row rows ih =>
    rw [printed_cons, List.flatMap_cons, List.append_assoc, ← ih]
    simp only [List.splitOn_eq_splitOnP]
    exact List.splitOnP_append_cons row (printed rows) rfl

/-- **The newlines of what is printed give the rows back, and nothing else**, as long as no row has a
newline in it. -/
theorem splitOn_printed_iff (rows : List (List Char)) :
    (printed rows).splitOn '\n' = rows ++ [[]] ↔ ∀ row ∈ rows, '\n' ∉ row := by
  rw [splitOn_printed, List.append_left_inj]
  refine ⟨fun h row hrow => ?_, fun h => ?_⟩
  · rw [← h, List.mem_flatMap] at hrow
    obtain ⟨_, _, hpiece⟩ := hrow
    exact fun hmem => (of_mem_splitOn hpiece hmem).2 rfl
  · induction rows with
    | nil => rfl
    | cons row rows ih =>
      have hfirst : row.splitOn '\n' = [row] := splitOn_of_not_mem (h row List.mem_cons_self)
      rw [List.flatMap_cons, hfirst, ih fun row hrow => h row (List.mem_cons_of_mem _ hrow)]
      rfl

/-- the layout of some lines is kept unless a newline stands in what is seen of a line -/
theorem splitOn_rows_iff (columns : Nat) (lines : List String) :
    (printed (rows columns lines)).splitOn '\n' = rows columns lines ++ [[]] ↔
      ∀ line ∈ lines, '\n' ∉ line.toList.take columns := by
  rw [splitOn_printed_iff, rows, List.forall_mem_map]
  simp only [newline_mem_fit]

/-! ## drawing -/

variable (O : Output ω ε)

theorem flatten_texts_draw (columns : Nat) (lines : List String) :
    (texts columns (.draw lines)).flatten = clearAndHome ++ printed (rows columns lines) := by
  simp [texts, printed, rows, List.flatMap_def, Function.comp_def]

/-- **A drawn frame is printed after the terminal has been cleared**, one row for each of its lines, and
drawing changes no width. -/
theorem draw_kept (t : Terminal (ω × List Char)) (lines : List String)
    (h : ((surface O.kept).call (.draw lines) t).1 = .ok ()) :
    ((surface O.kept).call (.draw lines) t).2.columns = t.columns ∧
    ((surface O.kept).call (.draw lines) t).2.out.2
      = t.out.2 ++ (clearAndHome ++ printed (rows t.columns lines)) := by
  refine ⟨rfl, ?_⟩
  obtain ⟨text', heq, hsent⟩ := O.send_kept (texts t.columns (.draw lines)) t.out.1 t.out.2
  have hresult : ((surface O.kept).call (.draw lines) t).1
      = (O.send (texts t.columns (.draw lines)) t.out.1).1 := congrArg Prod.fst heq
  have hout : ((surface O.kept).call (.draw lines) t).2.out.2 = text' :=
    congrArg (fun answer => answer.2.2) heq
  rw [hout, hsent (hresult.symm.trans h), flatten_texts_draw]

/-- a call fails only if its output fails -/
theorem call_ok {O : Output ω ε} (hO : O.TakesAll) (t : Terminal ω) (call : SurfaceCall) :
    ((surface O).call call t).1 = .ok () :=
  hO.send (texts (columnsAfter t.columns call) call) t.out

end Terminal

/-! ## the width of a window -/

namespace WindowHost

/-- a window that is there has the width of its options -/
def Fitted (h : WindowHost (Terminal ω)) : Prop :=
  h.window ≠ .closed → h.surface.columns = h.options.columns

variable {h : WindowHost (Terminal ω)}

theorem Fitted.new (options : WindowSettings) (t : Terminal ω) : Fitted (WindowHost.new options t) :=
  fun hopen => absurd rfl hopen

theorem options_apply {τ : Type} (S : Surface τ ε) (h : WindowHost τ) (op : Op) :
    (op.apply S h).2.options = h.options := by
  rw [op.apply_eq]
  cases op.call? h with
  | none => rfl
  | some call => rfl

theorem options_run {τ : Type} (S : Surface τ ε) (h : WindowHost τ) (ops : List Op) :
    (h.run S ops).options = h.options := by
  induction ops generalizing h with
  | nil => rfl
  | cons op ops ih => exact (ih (op.apply S h).2).trans (options_apply S h op)

theorem Fitted.apply (hf : Fitted h) (O : Output ω ε) (op : Op) :
    Fitted (op.apply (Terminal.surface O) h).2 := by
  rw [op.apply_eq]
  cases hcall : op.call? h with
  | none => exact hf
  | some call =>
    intro hopen
    show Terminal.columnsAfter h.surface.columns call = h.options.columns
    have hpermits : h.window.permits call = true := Op.permits_of_call? hcall
    cases call with
    | «open» options =>
      -- the window is made with its own options
      have hoptions : options = h.options := by
        cases op with
        | create => simp_all [Op.call?]
        | draw lines => simp [Op.call?] at hcall
        | event e => cases e <;> simp_all [Op.call?]
      rw [hoptions]
      rfl
    | «show» => exact hf fun hclosed => by simp [hclosed, WindowState.permits] at hpermits
    | draw lines => exact hf fun hclosed => by simp [hclosed, WindowState.permits] at hpermits
    | close => exact hf fun hclosed => by simp [hclosed, WindowState.permits] at hpermits

/-- any operations keep it, whichever calls fail -/
theorem Fitted.run (hf : Fitted h) (O : Output ω ε) (ops : List Op) :
    Fitted (h.run (Terminal.surface O) ops) := by
  induction ops generalizing h with
  | nil => exact hf
  | cons op ops ih => exact ih (hf.apply O op)

end WindowHost

end DeskClock
