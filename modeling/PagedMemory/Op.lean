import PagedMemory.Error
import PagedMemory.Event

/-!
# Operations

An operation runs on a state. It ends with a value or an error; in both cases the state that it
leaves stands, and so do the events that it reported. An error ends the operation at once and undoes
nothing.

- `run_bind`: running one operation after another;
- the instance of `LawfulMonad`: operations may be regrouped freely;
- `collect_cons`: a list of operations runs from left to right, up to the first error.
-/

namespace PagedMemory

/-- How an operation ended. -/
@[ext] structure Outcome (σ α : Type) where
  /-- The value, or why there is none. -/
  result : Except Error α
  /-- The state afterwards. -/
  state : σ
  /-- What happened, in order. -/
  events : List Event

/-- An operation on states `σ` that yields an `α`. -/
structure Op (σ α : Type) where
  /-- Runs the operation on a state. -/
  run : σ → Outcome σ α

namespace Outcome

variable {σ α β γ : Type}

/-- The outcome with events that happened before. -/
@[inline] def after (es : List Event) (o : Outcome σ α) : Outcome σ α :=
  match o with
  | ⟨r, s, fs⟩ => ⟨r, s, es ++ fs⟩

/-- Goes on with `f` unless the outcome is an error. -/
@[inline] def andThen (o : Outcome σ α) (f : α → σ → Outcome σ β) : Outcome σ β :=
  match o with
  | ⟨.ok a, s, es⟩ => (f a s).after es
  | ⟨.error e, s, es⟩ => ⟨.error e, s, es⟩

@[simp] theorem after_mk (es fs : List Event) (r : Except Error α) (s : σ) :
    after es ⟨r, s, fs⟩ = ⟨r, s, es ++ fs⟩ := rfl

@[simp] theorem after_nil (o : Outcome σ α) : o.after [] = o := rfl

@[simp] theorem after_after (es fs : List Event) (o : Outcome σ α) :
    (o.after fs).after es = o.after (es ++ fs) := by
  simp [after]

@[simp] theorem result_after (es : List Event) (o : Outcome σ α) :
    (o.after es).result = o.result := rfl

@[simp] theorem state_after (es : List Event) (o : Outcome σ α) :
    (o.after es).state = o.state := rfl

@[simp] theorem events_after (es : List Event) (o : Outcome σ α) :
    (o.after es).events = es ++ o.events := rfl

@[simp] theorem andThen_ok (a : α) (s : σ) (es : List Event) (f : α → σ → Outcome σ β) :
    andThen ⟨.ok a, s, es⟩ f = (f a s).after es := rfl

@[simp] theorem andThen_error (e : Error) (s : σ) (es : List Event) (f : α → σ → Outcome σ β) :
    andThen ⟨.error e, s, es⟩ f = ⟨.error e, s, es⟩ := rfl

@[simp] theorem andThen_after (es : List Event) (o : Outcome σ α) (f : α → σ → Outcome σ β) :
    (o.after es).andThen f = (o.andThen f).after es := by
  rcases o with ⟨_ | a, s, fs⟩ <;> simp

theorem andThen_assoc (o : Outcome σ α) (f : α → σ → Outcome σ β) (g : β → σ → Outcome σ γ) :
    (o.andThen f).andThen g = o.andThen fun a s => (f a s).andThen g := by
  rcases o with ⟨_ | a, s, es⟩ <;> simp

end Outcome

namespace Op

variable {σ τ α β ι : Type}

/-- Operations with equal runs are equal. -/
@[ext] theorem ext {op op' : Op σ α} (h : ∀ s, op.run s = op'.run s) : op = op' := by
  cases op; cases op'; congr; exact funext h

instance : Monad (Op σ) where
  pure a := ⟨fun s => ⟨.ok a, s, []⟩⟩
  bind op f := ⟨fun s => (op.run s).andThen fun a => (f a).run⟩

/-- Ends with an error. -/
@[inline] def fail (e : Error) : Op σ α := ⟨fun s => ⟨.error e, s, []⟩⟩

/-- Reports an event. -/
@[inline] def report (e : Event) : Op σ Unit := ⟨fun s => ⟨.ok (), s, [e]⟩⟩

/-- Fails unless the condition holds. -/
@[inline] def require (p : Prop) [Decidable p] (e : Error) : Op σ Unit := ⟨fun s =>
  ⟨if p then .ok () else .error e, s, []⟩⟩

/-- Answers from the state. -/
@[inline] def ask (f : σ → α) : Op σ α := ⟨fun s => ⟨.ok (f s), s, []⟩⟩

/-- Answers from the state, or fails. -/
@[inline] def query (f : σ → Except Error α) : Op σ α := ⟨fun s => ⟨f s, s, []⟩⟩

/-- Changes the state. -/
@[inline] def update (f : σ → σ) : Op σ Unit := ⟨fun s => ⟨.ok (), f s, []⟩⟩

/-- Changes the state if `check` lets it pass. -/
@[inline] def amend (check : σ → Except Error Unit) (f : σ → σ) : Op σ Unit := ⟨fun s =>
  match check s with
  | .ok () => ⟨.ok (), f s, []⟩
  | .error e => ⟨.error e, s, []⟩⟩

/-- Changes the state and answers. -/
@[inline] def change (f : σ → α × σ) : Op σ α := ⟨fun s => match f s with
  | (a, s) => ⟨.ok a, s, []⟩⟩

/-- Runs an operation on a part of the state. `split` takes the part out and `join` puts it back. -/
@[inline] def within (split : σ → τ × ι) (join : τ → ι → σ) (op : Op τ α) : Op σ α := ⟨fun s =>
  match split s with
  | (t, rest) =>
    match op.run t with
    | ⟨r, t, es⟩ => ⟨r, join t rest, es⟩⟩

/-- Runs an operation on the first half of a pair. -/
@[inline] def fst (op : Op σ α) : Op (σ × τ) α := within id Prod.mk op

/-- Runs an operation on the second half of a pair. -/
@[inline] def snd (op : Op τ α) : Op (σ × τ) α :=
  within (fun (s, t) => (t, s)) (fun t s => (s, t)) op

/-- Runs `op`, then `last` whether or not `op` failed. The error of `op` counts before that of
`last`. -/
@[inline] def andFinally (op : Op σ α) (last : Op σ Unit) : Op σ α := ⟨fun s =>
  match op.run s with
  | ⟨r, s, es⟩ =>
    match last.run s with
    | ⟨r', s, fs⟩ => ⟨(do let a ← r; let _ ← r'; pure a), s, es ++ fs⟩⟩

/-- Runs `op`, and `last` if `op` failed. The error is that of `op`. -/
@[inline] def onFailure (op : Op σ α) (last : Op σ Unit) : Op σ α := ⟨fun s =>
  match op.run s with
  | ⟨.ok a, s, es⟩ => ⟨.ok a, s, es⟩
  | ⟨.error e, s, es⟩ =>
    match last.run s with
    | ⟨_, s, fs⟩ => ⟨.error e, s, es ++ fs⟩⟩

/-! ## Running -/

@[simp] theorem run_pure (a : α) (s : σ) : (pure a : Op σ α).run s = ⟨.ok a, s, []⟩ := rfl

@[simp] theorem run_bind (op : Op σ α) (f : α → Op σ β) (s : σ) :
    (op >>= f).run s = (op.run s).andThen fun a => (f a).run := rfl

@[simp] theorem run_map (f : α → β) (op : Op σ α) (s : σ) :
    (f <$> op).run s = (op.run s).andThen fun a s => ⟨.ok (f a), s, []⟩ := rfl

@[simp] theorem run_fail (e : Error) (s : σ) : (fail e : Op σ α).run s = ⟨.error e, s, []⟩ := rfl

@[simp] theorem run_report (e : Event) (s : σ) : (report e).run s = ⟨.ok (), s, [e]⟩ := rfl

@[simp] theorem run_require (p : Prop) [Decidable p] (e : Error) (s : σ) :
    (require p e : Op σ Unit).run s = ⟨if p then .ok () else .error e, s, []⟩ := rfl

@[simp] theorem run_ask (f : σ → α) (s : σ) : (ask f).run s = ⟨.ok (f s), s, []⟩ := rfl

@[simp] theorem run_query (f : σ → Except Error α) (s : σ) : (query f).run s = ⟨f s, s, []⟩ := rfl

@[simp] theorem run_update (f : σ → σ) (s : σ) : (update f).run s = ⟨.ok (), f s, []⟩ := rfl

@[simp] theorem run_amend_ok {check : σ → Except Error Unit} {s : σ} (h : check s = .ok ())
    (f : σ → σ) : (amend check f).run s = ⟨.ok (), f s, []⟩ := by
  simp [amend, h]

@[simp] theorem run_amend_error {check : σ → Except Error Unit} {s : σ} {e : Error}
    (h : check s = .error e) (f : σ → σ) : (amend check f).run s = ⟨.error e, s, []⟩ := by
  simp [amend, h]

@[simp] theorem run_change (f : σ → α × σ) (s : σ) :
    (change f).run s = ⟨.ok (f s).1, (f s).2, []⟩ := rfl

@[simp] theorem run_within (split : σ → τ × ι) (join : τ → ι → σ) (op : Op τ α) (s : σ) :
    (within split join op).run s = ⟨(op.run (split s).1).result,
      join (op.run (split s).1).state (split s).2, (op.run (split s).1).events⟩ := rfl

@[simp] theorem run_fst (op : Op σ α) (s : σ) (t : τ) :
    op.fst.run (s, t) = ⟨(op.run s).result, ((op.run s).state, t), (op.run s).events⟩ := rfl

@[simp] theorem run_snd (op : Op τ α) (s : σ) (t : τ) :
    op.snd.run (s, t) = ⟨(op.run t).result, (s, (op.run t).state), (op.run t).events⟩ := rfl

instance : LawfulMonad (Op σ) := LawfulMonad.mk' (Op σ)
  (fun op => by
    ext1 s
    change (op.run s).andThen (fun a => (pure a : Op σ _).run) = op.run s
    rcases op.run s with ⟨_ | a, s', es⟩ <;> simp)
  (fun _ _ => rfl)
  (fun op f g => by
    ext1 s
    exact Outcome.andThen_assoc _ _ _)

/-! ## Lists of operations -/

/-- The loop behind `collect`: `done` holds the values so far, `seen` the events, both last first. -/
def collectFrom (f : ι → Op σ β) : List ι → List β → List Event → σ → Outcome σ (List β)
  | [], done, seen, s => ⟨.ok done.reverse, s, seen.reverse⟩
  | i :: is, done, seen, s =>
    match (f i).run s with
    | ⟨.ok b, s, es⟩ => collectFrom f is (b :: done) (es.reverseAux seen) s
    | ⟨.error e, s, es⟩ => ⟨.error e, s, seen.reverse ++ es⟩

/-- Runs `f` on each item from left to right, up to the first error, and collects the values. -/
def collect (f : ι → Op σ β) (is : List ι) : Op σ (List β) := ⟨collectFrom f is [] []⟩

/-- Runs `f` on each item from left to right, up to the first error. -/
def each (f : ι → Op σ Unit) (is : List ι) : Op σ Unit := do
  let _ ← collect f is
  pure ()

theorem collectFrom_eq (f : ι → Op σ β) (is : List ι) (done : List β) (seen : List Event) (s : σ) :
    collectFrom f is done seen s =
      (((collect f is).run s).andThen fun bs s => ⟨.ok (done.reverse ++ bs), s, []⟩).after
        seen.reverse := by
  induction is generalizing done seen s with
  | nil => simp [collect, collectFrom]
  | cons i is ih =>
    simp only [collect, collectFrom] at ih ⊢
    rcases (f i).run s with ⟨_ | b, s', es⟩
    · simp
    · simp only [List.reverseAux_eq]
      rw [ih (b :: done), ih [b]]
      rcases collectFrom f is [] [] s' with ⟨_ | bs, s'', fs⟩ <;> simp

@[simp] theorem collect_nil (f : ι → Op σ β) : collect f [] = pure [] := rfl

/-- The first item runs before the others. -/
theorem collect_cons (f : ι → Op σ β) (i : ι) (is : List ι) :
    collect f (i :: is) = (do let b ← f i; let bs ← collect f is; pure (b :: bs)) := by
  ext1 s
  simp only [run_bind]
  change collectFrom f (i :: is) [] [] s = _
  rw [collectFrom]
  rcases (f i).run s with ⟨_ | b, s', es⟩
  · simp
  · simp only [List.reverseAux_eq, collectFrom_eq f is, Outcome.andThen_ok, run_bind]
    rcases (collect f is).run s' with ⟨_ | bs, s'', fs⟩ <;> simp

@[simp] theorem each_nil (f : ι → Op σ Unit) : each f [] = pure () := rfl

/-- The first item runs before the others. -/
theorem each_cons (f : ι → Op σ Unit) (i : ι) (is : List ι) :
    each f (i :: is) = (do f i; each f is) := by
  simp [each, collect_cons]

end Op

end PagedMemory
