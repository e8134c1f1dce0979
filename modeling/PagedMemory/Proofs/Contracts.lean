import Mathlib.Data.List.Induction
import PagedMemory.Op

/-!
# Contracts of operations

`Op.Meets P op Q E` says what `op` guarantees from the states that satisfy `P`: if it ends with a
value then `Q` holds of the value and the state afterwards, and if it fails then `E` holds of the
error and the state that it leaves behind. Nothing is said about events.

- `Meets.bind`: contracts are chained along a program;
- `Meets.bind_congr`: what an operation guarantees may be used to rewrite what follows it;
- `Meets.step`: a program is run step by step, as long as its runs are known;
- `Meets.collect_range`: an invariant that each round keeps holds after the loop;
- `Meets.andFinally`, `Meets.onFailure`: the last operation runs on both ways out, or on one;
- `runAll_invariant`: what each call keeps holds after any calls, whatever comes of them.
-/

namespace PagedMemory

namespace Op

variable {σ τ α β : Type}

/-- From states that satisfy `P`, `op` reaches `Q` with a value, or `E` with an error. -/
def Meets (P : σ → Prop) (op : Op σ α) (Q : α → σ → Prop) (E : Error → σ → Prop) : Prop :=
  ∀ s, P s → match op.run s with
    | ⟨.ok a, s', _⟩ => Q a s'
    | ⟨.error e, s', _⟩ => E e s'

variable {P P' : σ → Prop} {op : Op σ α} {Q Q' : α → σ → Prop} {E E' : Error → σ → Prop}

/-- An operation ends with a value if no error can be. -/
theorem Meets.succeeds (h : Meets P op Q E) {s : σ} (hs : P s) (hE : ∀ e s', ¬ E e s') :
    ∃ a s' es, op.run s = ⟨.ok a, s', es⟩ ∧ Q a s' := by
  have h := h s hs
  rcases hop : op.run s with ⟨e | a, s', es⟩ <;> rw [hop] at h
  · exact absurd h (hE e s')
  · exact ⟨a, s', es, rfl, h⟩

/-- What a contract says of every run, with its result. -/
theorem Meets.outcome {R : Except Error α → σ → Prop}
    (h : Meets P op (fun a => R (.ok a)) (fun e => R (.error e))) {s : σ} (hs : P s) :
    R (op.run s).result (op.run s).state := by
  have h := h s hs
  rcases hop : op.run s with ⟨_ | b, s', es⟩ <;> rw [hop] at h <;> exact h

/-- A contract may ask for more and promise less. -/
theorem Meets.weaken (h : Meets P op Q E) (hP : ∀ s, P' s → P s) (hQ : ∀ a s, Q a s → Q' a s)
    (hE : ∀ e s, E e s → E' e s) : Meets P' op Q' E' := by
  intro s hs
  have h := h s (hP s hs)
  rcases hop : op.run s with ⟨e | a, s', es⟩ <;> rw [hop] at h
  · exact hE e s' h
  · exact hQ a s' h

theorem Meets.onError (h : Meets P op Q E) (hE : ∀ e s, E e s → E' e s) : Meets P op Q E' :=
  h.weaken (fun _ hs => hs) (fun _ _ hq => hq) hE

theorem Meets.onStart (h : Meets P op Q E) (hP : ∀ s, P' s → P s) : Meets P' op Q E :=
  h.weaken hP (fun _ _ hq => hq) fun _ _ he => he

/-- Of an arbitrary operation nothing is known. -/
theorem Meets.any (op : Op σ α) : Meets P op (fun _ _ => True) (fun _ _ => True) := by
  intro s _
  rcases op.run s with ⟨_ | a, s', es⟩ <;> trivial

/-- All that there is to say of one run. -/
theorem Meets.run (op : Op σ α) (s : σ) :
    Meets (· = s) op (fun a s' => ∃ es, op.run s = ⟨.ok a, s', es⟩)
      (fun e s' => ∃ es, op.run s = ⟨.error e, s', es⟩) := by
  rintro _ rfl
  rcases op.run _ with ⟨e | a, s', es⟩ <;> exact ⟨es, rfl⟩

/-- A contract that holds whatever happens. -/
theorem Meets.always (op : Op σ α) (hQ : ∀ a s, Q a s) (hE : ∀ e s, E e s) : Meets P op Q E :=
  (Meets.any op).weaken (fun _ h => h) (fun a s _ => hQ a s) fun e s _ => hE e s

/-! ## Programs -/

/-- Contracts are chained: what the first operation reaches is what the second starts from. -/
theorem Meets.bind {f : α → Op σ β} {R : β → σ → Prop} (h : Meets P op Q E)
    (hf : ∀ a, Meets (Q a) (f a) R E) : Meets P (op >>= f) R E := by
  intro s hs
  have h := h s hs
  rw [run_bind]
  rcases hop : op.run s with ⟨e | a, s', es⟩ <;> rw [hop] at h
  · exact h
  · have hf := hf a s' h
    rw [Outcome.andThen_ok]
    rcases hfa : (f a).run s' with ⟨e | b, s'', fs⟩ <;> rw [hfa] at hf <;> exact hf

/-- Two programs that begin alike may differ on values that the beginning never yields. -/
theorem Meets.bind_congr {p : α → Prop} {f g : α → Op σ β}
    (h : Meets (fun _ => True) op (fun a _ => p a) E) (hfg : ∀ a, p a → f a = g a) :
    op >>= f = op >>= g := by
  ext1 s
  have h := h s trivial
  rw [run_bind, run_bind]
  rcases hop : op.run s with ⟨e | a, s', es⟩ <;> rw [hop] at h
  · rfl
  · rw [Outcome.andThen_ok, Outcome.andThen_ok, hfg a h]

theorem Meets.pure {a : α} (h : ∀ s, P s → Q a s) : Meets P (pure a) Q E := h

/-- A contract may be shown for one state at a time. -/
theorem Meets.of_states (h : ∀ s, P s → Meets (· = s) op Q E) : Meets P op Q E :=
  fun s hs => h s hs s rfl

/-- What the precondition says of no state in particular may be assumed. -/
theorem Meets.of_imp {p : Prop} (hp : ∀ s, P s → p) (h : p → Meets P op Q E) : Meets P op Q E :=
  fun s hs => h (hp s hs) s hs

/-- What is said of no state in particular is true after an operation if it was before. -/
theorem Meets.lasting {p : Prop} (op : Op σ α) (hE : p → ∀ e s, E e s) :
    Meets (fun _ => p) op (fun _ _ => p) E :=
  Meets.of_imp (fun _ h => h) fun h => Meets.always op (fun _ _ => h) (hE h)

/-- Where the run of the first operation is known, the program goes on from the state reached. -/
theorem Meets.step {f : α → Op σ β} {R : β → σ → Prop} {s s' : σ} {a : α} {es : List Event}
    (hr : op.run s = ⟨.ok a, s', es⟩) (hf : Meets (· = s') (f a) R E) :
    Meets (· = s) (op >>= f) R E := by
  rintro _ rfl
  have hf := hf s' rfl
  rw [run_bind, hr, Outcome.andThen_ok]
  rcases hfa : (f a).run s' with ⟨e | b, s'', fs⟩ <;> rw [hfa] at hf <;> exact hf

/-- An answer that does not depend on the state is passed on. -/
theorem query_ok_bind (a : α) (f : α → Op σ β) : (query fun _ => .ok a) >>= f = f a := rfl

/-- An answer that is known is passed on. -/
theorem Meets.step_query {f : σ → Except Error α} {g : α → Op σ β} {R : β → σ → Prop} {s : σ}
    {a : α} (hf : f s = .ok a) (hg : Meets (· = s) (g a) R E) :
    Meets (· = s) (.query f >>= g) R E := by
  have hrun : (query f).run s = ⟨.ok a, s, []⟩ := by rw [run_query, hf]
  exact Meets.step hrun hg

/-- A program ends where it gets no answer. -/
theorem Meets.stop_query {f : σ → Except Error α} {g : α → Op σ β} {R : β → σ → Prop} {s : σ}
    {e : Error} (hf : f s = .error e) (he : E e s) : Meets (· = s) (.query f >>= g) R E := by
  rintro _ rfl
  rw [run_bind, run_query, hf]
  exact he

theorem Meets.report {Q : Unit → σ → Prop} {event : Event} (h : ∀ s, P s → Q () s) :
    Meets P (.report event) Q E := h

theorem Meets.report_bind {event : Event} {g : Unit → Op σ β} {R : β → σ → Prop}
    (h : Meets P (g ()) R E) : Meets P (.report event >>= g) R E :=
  (Meets.report fun _ hs => hs).bind fun _ => h

theorem Meets.require {p : Prop} [Decidable p] {e : Error} {Q : Unit → σ → Prop}
    (hp : ∀ s, P s → p → Q () s) (hn : ∀ s, P s → ¬ p → E e s) : Meets P (.require p e) Q E := by
  intro s hs
  rw [run_require]
  by_cases h : p
  · rw [if_pos h]
    exact hp s hs h
  · rw [if_neg h]
    exact hn s hs h

theorem Meets.query {f : σ → Except Error α} (hok : ∀ s a, P s → f s = .ok a → Q a s)
    (herr : ∀ s e, P s → f s = .error e → E e s) : Meets P (.query f) Q E := by
  intro s hs
  rw [run_query]
  rcases hf : f s with e | a
  · exact herr s e hs hf
  · exact hok s a hs hf

/-- After an answer the program goes on with what the answer tells of the state. -/
theorem Meets.query_bind {f : σ → Except Error α} {g : α → Op σ β} {p : α → Prop}
    {R : β → σ → Prop} (hp : ∀ s a, P s → f s = .ok a → p a) (hg : ∀ a, p a → Meets P (g a) R E)
    (herr : ∀ s e, P s → f s = .error e → E e s) : Meets P (.query f >>= g) R E := by
  refine Meets.bind (Q := fun a s => p a ∧ P s) (Meets.query ?_ herr) ?_
  · intro s a hs hf
    exact ⟨hp s a hs hf, hs⟩
  · intro a
    refine Meets.of_imp (fun s hs => hs.1) ?_
    intro ha
    exact (hg a ha).onStart fun s hs => hs.2

/-- An operation on a part of the state leaves the rest alone. -/
theorem Meets.within {ι : Type} {split : σ → τ × ι} {join : τ → ι → σ} {op : Op τ α}
    (h : ∀ s, P s → Meets (· = (split s).1) op (fun a t => Q a (join t (split s).2))
      (fun e t => E e (join t (split s).2))) : Meets P (op.within split join) Q E := by
  intro s hs
  have h := h s hs (split s).1 rfl
  rw [run_within]
  rcases hop : op.run (split s).1 with ⟨e | a, t, es⟩ <;> rw [hop] at h <;> exact h

section

variable {A : τ → Prop} {f : α → Op (τ × σ) β} {g : α → Op (σ × τ) β} {R : β → τ × σ → Prop}
  {F : Error → τ × σ → Prop} {R' : β → σ × τ → Prop} {F' : Error → σ × τ → Prop}

/-- A program that begins with the second half of a pair keeps what is known of the first half. -/
theorem Meets.snd_bind {t : σ} (h : Meets (· = t) op Q E)
    (hf : ∀ a t', Q a t' → Meets (fun s => A s.1 ∧ s.2 = t') (f a) R F)
    (he : ∀ e s t', A s → E e t' → F e (s, t')) :
    Meets (fun s => A s.1 ∧ s.2 = t) (op.snd >>= f) R F := by
  have hsnd : Meets (fun s => A s.1 ∧ s.2 = t) op.snd (fun a s => A s.1 ∧ Q a s.2) F := by
    refine Meets.within ?_
    rintro ⟨s, _⟩ ⟨hs, rfl⟩
    exact h.weaken (fun _ ht => ht) (fun _ _ hq => ⟨hs, hq⟩) fun e t' => he e s t' hs
  exact hsnd.bind fun a => of_states fun s hs => (hf a s.2 hs.2).weaken
    (fun _ ht => by rw [ht]; exact ⟨hs.1, rfl⟩) (fun _ _ hr => hr) fun _ _ hr => hr

/-- An operation on the first half of a pair leaves the second half as it is. -/
theorem Meets.fst {t : τ} (h : Meets P op Q E) (he : ∀ e s, E e s → F' e (s, t)) :
    Meets (fun s => P s.1 ∧ s.2 = t) op.fst (fun a s => Q a s.1 ∧ s.2 = t) F' := by
  refine Meets.within ?_
  rintro ⟨s, _⟩ ⟨hs, rfl⟩
  refine h.weaken ?_ (fun _ _ hq => ⟨hq, rfl⟩) he
  rintro _ rfl
  exact hs

/-- A program that begins with the first half of a pair leaves the second half as it is. -/
theorem Meets.fst_bind {t : τ} (h : Meets P op Q E)
    (hg : ∀ a, Meets (fun s => Q a s.1 ∧ s.2 = t) (g a) R' F')
    (he : ∀ e s, E e s → F' e (s, t)) :
    Meets (fun s => P s.1 ∧ s.2 = t) (op.fst >>= g) R' F' :=
  (h.fst he).bind hg

end

/-- Whatever happens to the first half of a pair, the second half stays. -/
theorem Meets.fst_any {B : τ → Prop} (op : Op σ α) :
    Meets (fun s => B s.2) op.fst (fun _ s => B s.2) (fun _ s => B s.2) := by
  refine Meets.within ?_
  rintro ⟨s, t⟩ ht
  exact (Meets.any op).weaken (fun _ h => h) (fun _ _ _ => ht) fun _ _ _ => ht

theorem run_andFinally (op : Op σ α) (last : Op σ Unit) (s : σ) :
    (op.andFinally last).run s =
      ⟨do let a ← (op.run s).result; let _ ← (last.run (op.run s).state).result; pure a,
        (last.run (op.run s).state).state,
        (op.run s).events ++ (last.run (op.run s).state).events⟩ := rfl

/-- The last operation runs on both ways out; whatever it answers, what it reaches holds. -/
theorem Meets.andFinally {last : Op σ Unit} {R : α → σ → Prop} {F : Error → σ → Prop}
    (h : Meets P op Q E) (hok : ∀ a, Meets (Q a) last (fun _ => R a) F)
    (herr : ∀ e, Meets (E e) last (fun _ => F e) (fun _ => F e)) :
    Meets P (op.andFinally last) R F := by
  intro s hs
  have h := h s hs
  rw [run_andFinally]
  rcases hop : op.run s with ⟨e | a, s', es⟩ <;> rw [hop] at h <;> dsimp only
  · have herr := herr e s' h
    rcases hl : last.run s' with ⟨e' | u, s'', fs⟩ <;> rw [hl] at herr <;> exact herr
  · have hok := hok a s' h
    rcases hl : last.run s' with ⟨e' | u, s'', fs⟩ <;> rw [hl] at hok <;> exact hok

theorem run_onFailure (op : Op σ α) (last : Op σ Unit) (s : σ) :
    (op.onFailure last).run s = match op.run s with
      | ⟨.ok a, s', es⟩ => ⟨.ok a, s', es⟩
      | ⟨.error e, s', es⟩ =>
        ⟨.error e, (last.run s').state, es ++ (last.run s').events⟩ := rfl

/-- The last operation runs after a failure; whatever it answers, what it reaches holds. -/
theorem Meets.onFailure {last : Op σ Unit} {F : Error → σ → Prop} (h : Meets P op Q E)
    (hlast : ∀ e, Meets (E e) last (fun _ => F e) (fun _ => F e)) :
    Meets P (op.onFailure last) Q F := by
  intro s hs
  have h := h s hs
  rw [run_onFailure]
  rcases hop : op.run s with ⟨e | a, s', es⟩ <;> rw [hop] at h
  · exact (hlast e).outcome (R := fun _ => F e) h
  · exact h

/-! ## Loops -/

/-- The loop of `collect` from round `m` on: induction on the number of rounds that are left. -/
theorem Meets.collect_range' {f : Nat → Op σ β} {I : Nat → List β → σ → Prop} {m : Nat} :
    ∀ (n k : Nat) (done : List β), k + n = m →
      (∀ j, j < m → ∀ bs, Meets (I j bs) (f j) (fun b => I (j + 1) (bs ++ [b])) E) →
      Meets (I k done) (collect f (List.range' k n)) (fun bs => I m (done ++ bs)) E
  | 0, k, done, hk, _ => by
    subst hk
    rw [List.range'_zero, collect_nil]
    exact Meets.pure fun s hs => by simpa using hs
  | n + 1, k, done, hk, h => by
    rw [List.range'_succ, collect_cons]
    refine (h k (by omega) done).bind ?_
    intro b
    have ih := Meets.collect_range' n (k + 1) (done ++ [b]) (by omega) h
    exact ih.bind fun bs => Meets.pure fun s hs => by simpa using hs

/-- An invariant that each round keeps holds after the loop. -/
theorem Meets.collect_range {f : Nat → Op σ β} {I : Nat → List β → σ → Prop} {n : Nat}
    (h : ∀ k, k < n → ∀ done, Meets (I k done) (f k) (fun b => I (k + 1) (done ++ [b])) E) :
    Meets (I 0 []) (collect f (List.range n)) (I n) E := by
  rw [List.range_eq_range']
  simpa using Meets.collect_range' n 0 [] (Nat.zero_add n) h

/-! ## Values under a function -/

section

variable {f : α → β} {s s' : σ} {es : List Event}

theorem run_map_of_ok {a : α} (h : op.run s = ⟨.ok a, s', es⟩) :
    (f <$> op).run s = ⟨.ok (f a), s', es⟩ := by
  rw [run_map, h, Outcome.andThen_ok, Outcome.after_mk, List.append_nil]

theorem run_map_of_error {e : Error} (h : op.run s = ⟨.error e, s', es⟩) :
    (f <$> op).run s = ⟨.error e, s', es⟩ := by
  rw [run_map, h, Outcome.andThen_error]

theorem result_map (f : α → β) (op : Op σ α) (s : σ) :
    ((f <$> op).run s).result = (op.run s).result.map f := by
  rw [run_map]
  rcases op.run s with ⟨_ | a, s', es⟩ <;> rfl

theorem state_map (f : α → β) (op : Op σ α) (s : σ) :
    ((f <$> op).run s).state = (op.run s).state := by
  rw [run_map]
  rcases op.run s with ⟨_ | a, s', es⟩ <;> rfl

theorem result_of_map_eq {r : Except Error α}
    (h : ((some <$> op).run s).result = r.map some) : (op.run s).result = r := by
  rw [result_map] at h
  generalize (op.run s).result = r' at h ⊢
  cases r <;> cases r' <;> cases h <;> rfl

theorem result_of_map_some {t : σ}
    (h : ((some <$> op).run s).result = ((some <$> op).run t).result) :
    (op.run s).result = (op.run t).result :=
  result_of_map_eq (h.trans (result_map some op t))

end

/-! ## Calls one after the other -/

universe u

variable {ι : Type u} {f : ι → Op σ α} {s : σ}

/-- Makes calls one after the other, whatever comes of each: the state afterwards, and the calls
with how they ended. -/
def runAll (f : ι → Op σ α) (s : σ) (calls : List ι) : σ × List (ι × Except Error α) :=
  calls.foldl (fun (s, log) call =>
    let o := (f call).run s
    (o.state, log ++ [(call, o.result)])) (s, [])

theorem runAll_concat (f : ι → Op σ α) (s : σ) (calls : List ι) (call : ι) :
    runAll f s (calls ++ [call]) =
      (((f call).run (runAll f s calls).1).state,
        (runAll f s calls).2 ++ [(call, ((f call).run (runAll f s calls).1).result)]) := by
  rw [runAll, List.foldl_append]
  rfl

/-- What came of the calls before has no part in the state after the next one. -/
theorem state_runAll (f : ι → Op σ α) (s : σ) (calls : List ι) :
    (runAll f s calls).1 = calls.foldl (fun s call => ((f call).run s).state) s :=
  (List.foldl_hom Prod.fst fun _ _ => rfl).symm

/-- What holds at the start, and is kept by each of the calls, holds after them. Induction on the
calls, from the last one back. -/
theorem runAll_invariant_of_mem {I : σ → List (ι × Except Error α) → Prop} (hstart : I s [])
    (calls : List ι) (hcall : ∀ call ∈ calls, ∀ s log, I s log →
      I ((f call).run s).state (log ++ [(call, ((f call).run s).result)])) :
    I (runAll f s calls).1 (runAll f s calls).2 := by
  induction calls using List.reverseRecOn with
  | nil => exact hstart
  | append_singleton calls call ih =>
    rw [runAll_concat]
    refine hcall call (List.mem_append_right _ List.mem_cons_self) _ _ (ih ?_)
    exact fun call hmem => hcall call (List.mem_append_left _ hmem)

/-- What holds at the start, and is kept by every call, holds after any calls. -/
theorem runAll_invariant {I : σ → List (ι × Except Error α) → Prop} (hstart : I s [])
    (hcall : ∀ s log call, I s log →
      I ((f call).run s).state (log ++ [(call, ((f call).run s).result)]))
    (calls : List ι) : I (runAll f s calls).1 (runAll f s calls).2 :=
  runAll_invariant_of_mem hstart calls fun call _ s log => hcall s log call

end Op

end PagedMemory
