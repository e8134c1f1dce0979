import PagedMemory.Proofs.LoadContracts
import PagedMemory.Proofs.SpaceMaps

/-!
# Memory that calls lead to

Spaces are created, pages are mapped, ranges are mapped to themselves, and files are loaded from
stores of any kind, in any order, whatever comes of each call. Memory has a valid layout all the
time.

- `Memory.run`: the memory that a list of calls leads to;
- `load_meets`: a load leads from one valid layout to another, even when it fails;
- `perform_orderly`, `Reached.orderly`: so does any call, and any list of them.
-/

namespace PagedMemory

/-- A call on memory. Each load brings its own file store. -/
inductive Call : Type 1
  | edit (e : Edit)
  | mapIdentity (space : Nat) (range : Range)
  | load {φ : Type} [FileStore φ] (space : Nat) (loader : Loader) (files : φ) (name : String)

namespace Memory

open Layout

/-- Loads a file into the space `i`. -/
def load {φ : Type} [FileStore φ] (i : Nat) (loader : Loader) (files : φ) (name : String) :
    Op Memory Image := do
  let space ← space i
  .within (fun m => ((files, m.ram, m.pool), m.spaces))
    (fun (_, ram, pool) spaces => ⟨ram, pool, spaces⟩) (loader.load space name)

variable {φ : Type} [FileStore φ] {P : φ → Prop} {name : String} {spaces : List AddressSpace}
  {l : Layout} {i : Nat} {space : AddressSpace}

/-- A load leads from the memory of one layout to that of another, whatever comes of it. -/
theorem load_meets (c : FileContract φ P name) (hl : l.Valid spaces) (i : Nat) (loader : Loader)
    (files : φ) (hf : P files) :
    Op.Meets (· = l.memory spaces) (load i loader files name)
      (fun _ m => ∃ l' space, spaces[i]? = some space ∧ m = l'.memory spaces ∧
        Loads spaces i space (Loader.MayCover c loader) l l')
      (fun _ m => ∃ l', m = l'.memory spaces ∧ (l' = l ∨ ∃ space, spaces[i]? = some space ∧
        Loads spaces i space (Loader.MayCover c loader) l l')) := by
  refine space_bind_meets (fun space hi => Op.Meets.within ?_) fun _ => ⟨l, rfl, .inl rfl⟩
  rintro _ rfl
  refine (Loader.load_meets c hl hi).weaken ?_ ?_ ?_
  · rintro _ rfl
    exact ⟨hf, rfl⟩
  · rintro image ⟨files, _⟩ ⟨l', rfl, hloads, -⟩
    exact ⟨l', space, hi, rfl, hloads⟩
  · rintro e ⟨files, _⟩ ⟨-, l', rfl, hloads⟩
    exact ⟨l', rfl, .inr ⟨space, hi, hloads⟩⟩

/-- With enough of everything the file is loaded. -/
theorem load_of_enough (c : FileContract φ P name) (hl : l.Valid spaces)
    (hi : spaces[i]? = some space) {loader : Loader} (h : Loader.Enough c loader l) {files : φ}
    (hf : P files) :
    ∃ (l' : Layout) (image : Image),
      ((load i loader files name).run (l.memory spaces)).state = l'.memory spaces ∧
      Loads spaces i space (Loader.MayCover c loader) l l' ∧
      Loader.Loaded c loader i space image l' ∧
      ∀ n, l.Roomy (n + 2 * Page.count image.size) → l'.Roomy n := by
  obtain ⟨image, s, es, hrun, l', hs, hloads, hloaded, hroom⟩ := Loader.load_of_enough c hl hi h hf
  refine ⟨l', image, ?_, hloads, hloaded, hroom⟩
  obtain ⟨files', _⟩ := s
  obtain rfl := hs
  have hspace : (Memory.space i).run (l.memory spaces) = ⟨.ok space, l.memory spaces, []⟩ := by
    rw [Memory.space, Op.run_query, show (l.memory spaces).spaces[i]? = some space from hi]
  have hload : (loader.load space name).run (files, (l.memory spaces).ram, (l.memory spaces).pool) =
      ⟨.ok image, (files', l'.state), es⟩ := hrun
  rw [load, Op.run_bind, hspace, Outcome.andThen_ok, Outcome.after_nil, Op.run_within, hload]
  rfl

end Memory

namespace Call

open Layout

variable {spaces : List AddressSpace} {l : Layout}

/-- Makes the call. The files of a load are its own: what is left of them is dropped, and so is the
image. -/
def perform : Call → Op Memory Unit
  | .edit e => e.perform
  | .mapIdentity i range => Memory.mapIdentity i range
  | @load _ _ i loader files name => do
    let _ ← Memory.load i loader files name
    pure ()

theorem state_load {φ : Type} [FileStore φ] (i : Nat) (loader : Loader) (files : φ) (name : String)
    (m : Memory) : ((Call.load i loader files name).perform.run m).state =
      ((Memory.load i loader files name).run m).state := by
  rw [perform, Op.run_bind]
  rcases (Memory.load i loader files name).run m with ⟨_ | image, m', es⟩ <;> rfl

/-- Memory has a valid layout, with some spaces. -/
def Orderly (m : Memory) : Prop :=
  ∃ (l : Layout) (spaces : List AddressSpace), m = l.memory spaces ∧ l.Valid spaces

/-- Every call keeps memory in order, whatever comes of it. -/
theorem perform_orderly (hl : l.Valid spaces) (call : Call) :
    Op.Meets (· = l.memory spaces) call.perform (fun _ => Orderly) (fun _ => Orderly) := by
  cases call with
  | edit e =>
    refine (e.perform_meets hl).weaken (fun _ h => h) ?_ ?_
    · rintro _ _ ⟨l', spaces', rfl, hl', -⟩
      exact ⟨l', spaces', rfl, hl'⟩
    · rintro _ _ ⟨l', spaces', rfl, hl', -⟩
      exact ⟨l', spaces', rfl, hl'⟩
  | mapIdentity i range =>
    refine (Memory.mapIdentity_meets hl i range).weaken (fun _ h => h) ?_ ?_
    · rintro _ _ ⟨l', rfl, hev⟩
      exact ⟨l', spaces, rfl, hev.valid⟩
    · rintro _ _ ⟨l', rfl, hev⟩
      exact ⟨l', spaces, rfl, hev.valid⟩
  | load i loader files name =>
    have hload := Memory.load_meets (FileContract.any _ name) hl i loader files trivial
    refine Op.Meets.bind (hload.weaken (fun _ h => h) (fun _ _ h => h) ?_) fun _ => Op.Meets.pure ?_
    · rintro _ _ ⟨l', rfl, rfl | ⟨space, hi, hloads⟩⟩
      · exact ⟨_, spaces, rfl, hl⟩
      · exact ⟨l', spaces, rfl, hloads.valid⟩
    · rintro _ ⟨l', space, hi, rfl, hloads⟩
      exact ⟨l', spaces, rfl, hloads.valid⟩

end Call

namespace Memory

/-- The memory that calls lead to, made one after the other, whatever comes of each. -/
def run (m : Memory) (calls : List Call) : Memory := (Op.runAll Call.perform m calls).1

/-- Calls lead from the start to this memory. -/
def Reached (m : Memory) : Prop :=
  ∃ (ram : Ram) (range : Range) (calls : List Call), m = (start ram range).run calls

theorem reached_start (ram : Ram) (range : Range) : (start ram range).Reached :=
  ⟨ram, range, [], rfl⟩

theorem Reached.perform {m : Memory} (h : m.Reached) (call : Call) :
    (call.perform.run m).state.Reached := by
  obtain ⟨ram, range, calls, rfl⟩ := h
  refine ⟨ram, range, calls ++ [call], ?_⟩
  rw [run, run, Op.runAll_concat]

/-- Any calls keep memory in order. -/
theorem Reached.orderly {m : Memory} (h : m.Reached) : Call.Orderly m := by
  obtain ⟨ram, range, calls, rfl⟩ := h
  refine Op.runAll_invariant (I := fun m _ => Call.Orderly m)
    ⟨Layout.start ram range, [], rfl, Layout.valid_start ram range⟩ ?_ calls
  rintro _ _ call ⟨l, spaces, rfl, hl⟩
  exact (Call.perform_orderly hl call).outcome (R := fun _ => Call.Orderly) rfl

end Memory

end PagedMemory
