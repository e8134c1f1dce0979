import PagedMemory.Proofs.Contracts

/-!
# Traces of operations

An operation is a program of smaller ones. A trace of it lists those that ran, in order and with
their answers; each runs in the state that the one before has left. What may stand in a trace is
told by predicates on traces and results, one for each program.

- `Performs`: the steps of a trace lead from one state to another;
- `Traces`: every run of an operation has a trace of a certain kind;
- `Traces.bind`, `Traces.andFinally`, `Traces.onFailure`, `Traces.collect`: traces of programs from
  those of their parts;
- `Collected.findSome?`: a loop ends with the error of the step that failed first.
-/

namespace PagedMemory

namespace Op

variable {σ ι κ α β : Type} {W : ι → σ → σ → Prop} {op : Op σ α}

/-- The steps lead from one state to another, one after the other. -/
inductive Performs (W : ι → σ → σ → Prop) : List ι → σ → σ → Prop
  | nil (s : σ) : Performs W [] s s
  | cons {i : ι} {is : List ι} {s t u : σ} : W i s t → Performs W is t u → Performs W (i :: is) s u

theorem Performs.append {is js : List ι} {s t u : σ} (h : Performs W is s t)
    (h' : Performs W js t u) : Performs W (is ++ js) s u := by
  induction h with
  | nil _ => exact h'
  | cons hstep _ ih => exact .cons hstep (ih h')

theorem Performs.of_append {js : List ι} {u : σ} : ∀ {is : List ι} {s : σ},
    Performs W (is ++ js) s u → ∃ t, Performs W is s t ∧ Performs W js t u
  | [], s, h => ⟨s, .nil s, h⟩
  | _ :: _, _, .cons hstep h => by
    obtain ⟨t, h, h'⟩ := of_append h
    exact ⟨t, .cons hstep h, h'⟩

/-- What each step keeps, all of them keep. -/
theorem Performs.invariant {I : σ → Prop} {is : List ι} {s t : σ} (h : Performs W is s t)
    (hstep : ∀ i ∈ is, ∀ s t, W i s t → I s → I t) (hs : I s) : I t := by
  induction h with
  | nil _ => exact hs
  | cons hi _ ih =>
    exact ih (fun j hj => hstep j (List.mem_cons_of_mem _ hj))
      (hstep _ List.mem_cons_self _ _ hi hs)

/-- In the state `s` the operation answers `r`, and leaves the state `t`. -/
def Answers (op : Op σ α) (r : Except Error α) (s t : σ) : Prop := ∃ es, op.run s = ⟨r, t, es⟩

theorem Answers.result_eq {r : Except Error α} {s t : σ} (h : op.Answers r s t) :
    (op.run s).result = r := by
  obtain ⟨es, h⟩ := h
  rw [h]

theorem Answers.state_eq {r : Except Error α} {s t : σ} (h : op.Answers r s t) :
    (op.run s).state = t := by
  obtain ⟨es, h⟩ := h
  rw [h]

/-- What a contract says of an answer. -/
theorem Answers.of_meets {P : σ → Prop} {Q : α → σ → Prop} {E : Error → σ → Prop} {a : α} {s t : σ}
    (ha : op.Answers (.ok a) s t) (h : Meets P op Q E) (hs : P s) : Q a t := by
  obtain ⟨es, hrun⟩ := ha
  have h := h s hs
  rw [hrun] at h
  exact h

theorem answers_run (op : Op σ α) (s : σ) : op.Answers (op.run s).result s (op.run s).state :=
  ⟨_, rfl⟩

/-- Every run of the operation has a trace of which `T` holds, together with its result. -/
def Traces (W : ι → σ → σ → Prop) (op : Op σ α) (T : List ι → Except Error α → Prop) : Prop :=
  ∀ s, ∃ steps, Performs W steps s (op.run s).state ∧ T steps (op.run s).result

variable {T T' : List ι → Except Error α → Prop} {V : List ι → Except Error β → Prop}

theorem Traces.weaken (h : Traces W op T) (hT : ∀ steps r, T steps r → T' steps r) :
    Traces W op T' := by
  intro s
  obtain ⟨steps, hsteps, h⟩ := h s
  exact ⟨steps, hsteps, hT _ _ h⟩

/-- An operation that is a step by itself. -/
theorem Traces.step (step : Except Error α → ι) (h : ∀ r s t, op.Answers r s t → W (step r) s t) :
    Traces W op fun steps r => steps = [step r] :=
  fun s => ⟨_, .cons (h _ _ _ (answers_run op s)) (.nil _), rfl⟩

theorem Traces.pure (a : α) : Traces W (Pure.pure a) fun steps r => steps = [] ∧ r = .ok a :=
  fun s => ⟨[], .nil s, rfl, rfl⟩

theorem Traces.report (event : Event) :
    Traces W (.report event) fun steps r => steps = [] ∧ r = .ok () :=
  fun s => ⟨[], .nil s, rfl, rfl⟩

/-- A program ends where its first part fails, or goes on with the second part. -/
theorem Traces.bind {f : α → Op σ β} {U : α → List ι → Except Error β → Prop}
    (h : Traces W op T) (hf : ∀ a, Traces W (f a) (U a))
    (herr : ∀ us e, T us (.error e) → V us (.error e))
    (hok : ∀ us a vs r, T us (.ok a) → U a vs r → V (us ++ vs) r) : Traces W (op >>= f) V := by
  intro s
  obtain ⟨us, hus, hT⟩ := h s
  rw [run_bind]
  rcases hop : op.run s with ⟨e | a, t, es⟩ <;> rw [hop] at hus hT
  · exact ⟨us, hus, herr us e hT⟩
  · obtain ⟨vs, hvs, hU⟩ := hf a t
    rw [Outcome.andThen_ok, Outcome.state_after, Outcome.result_after]
    exact ⟨us ++ vs, hus.append hvs, hok us a vs _ hT hU⟩

/-- What runs after a report is all that there is to see. -/
theorem Traces.report_bind {event : Event} {f : Unit → Op σ β} (h : Traces W (f ()) V) :
    Traces W (.report event >>= f) V := by
  refine (Traces.report event).bind (fun _ => h) ?_ ?_
  · rintro us e ⟨-, he⟩
    cases he
  · rintro us a vs r ⟨rfl, -⟩ hV
    exact hV

/-- The last part runs in any case. -/
theorem Traces.andFinally {last : Op σ Unit} {U : List ι → Except Error Unit → Prop}
    (h : Traces W op T) (hlast : Traces W last U) (hV : ∀ us r vs r', T us r → U vs r' →
      T' (us ++ vs) (do let a ← r; let _ ← r'; Pure.pure a)) :
    Traces W (op.andFinally last) T' := by
  intro s
  obtain ⟨us, hus, hT⟩ := h s
  obtain ⟨vs, hvs, hU⟩ := hlast (op.run s).state
  rw [run_andFinally]
  exact ⟨us ++ vs, hus.append hvs, hV us _ vs _ hT hU⟩

/-- The last part runs after a failure, and is not heard. -/
theorem Traces.onFailure {last : Op σ Unit} {U : List ι → Except Error Unit → Prop}
    (h : Traces W op T) (hlast : Traces W last U) (hok : ∀ us a, T us (.ok a) → T' us (.ok a))
    (herr : ∀ us e vs r', T us (.error e) → U vs r' → T' (us ++ vs) (.error e)) :
    Traces W (op.onFailure last) T' := by
  intro s
  obtain ⟨us, hus, hT⟩ := h s
  rw [run_onFailure]
  rcases hop : op.run s with ⟨e | a, t, es⟩ <;> rw [hop] at hus hT
  · obtain ⟨vs, hvs, hU⟩ := hlast t
    exact ⟨us ++ vs, hus.append hvs, herr us e vs _ hT hU⟩
  · exact ⟨us, hus, hok us a hT⟩

/-! ## Loops -/

/-- The traces of a loop: those of its rounds up to the first that fails. -/
inductive Collected (T : κ → List ι → Except Error β → Prop) :
    List κ → List ι → Except Error (List β) → Prop
  | nil : Collected T [] [] (.ok [])
  | stop {k : κ} {ks : List κ} {us : List ι} {e : Error} :
      T k us (.error e) → Collected T (k :: ks) us (.error e)
  | more {k : κ} {ks : List κ} {us vs : List ι} {b : β} {r : Except Error (List β)} :
      T k us (.ok b) → Collected T ks vs r → Collected T (k :: ks) (us ++ vs) (r.map (b :: ·))

/-- A loop runs its rounds one after the other. Induction on the rounds. -/
theorem Traces.collect {f : κ → Op σ β} {T : κ → List ι → Except Error β → Prop}
    (h : ∀ k, Traces W (f k) (T k)) : ∀ ks, Traces W (collect f ks) (Collected T ks)
  | [] => (Traces.pure []).weaken fun steps r => by
    rintro ⟨rfl, rfl⟩
    exact .nil
  | k :: ks => by
    rw [collect_cons]
    refine (h k).bind (U := fun b vs r => ∃ r', Collected T ks vs r' ∧ r = r'.map (b :: ·))
      (fun b => ?_) (fun us e => .stop) ?_
    · -- the values of the later rounds come behind that of the first one
      refine (Traces.collect h ks).bind (fun bs => Traces.pure (b :: bs)) ?_ ?_
      · exact fun us e hT => ⟨_, hT, rfl⟩
      · rintro us bs vs r hT ⟨rfl, rfl⟩
        rw [List.append_nil]
        exact ⟨_, hT, rfl⟩
    · rintro us b vs r hT ⟨r', hrest, rfl⟩
      exact .more hT hrest

/-- The error of a result. -/
def failure? : Except Error α → Option Error
  | .ok _ => none
  | .error e => some e

@[simp] theorem failure?_map (f : α → β) (r : Except Error α) :
    failure? (r.map f) = failure? r := by
  cases r <;> rfl

/-- If each round fails as the first of its steps that does, so does the loop. -/
theorem Collected.findSome? {T : κ → List ι → Except Error β → Prop} {err : ι → Option Error}
    (hT : ∀ k us r, T k us r → us.findSome? err = failure? r) {ks : List κ} {steps : List ι}
    {r : Except Error (List β)} (h : Collected T ks steps r) :
    steps.findSome? err = failure? r := by
  induction h with
  | nil => rfl
  | stop h => exact hT _ _ _ h
  | more h _ ih =>
    rw [List.findSome?_append, hT _ _ _ h, ih, failure?_map]
    rfl

end Op

end PagedMemory
