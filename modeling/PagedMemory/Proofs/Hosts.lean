import PagedMemory.Machine.Loading
import PagedMemory.Proofs.Calls

/-!
# Hosts of programs

A host creates spaces on a machine, and loads programs into them with frames from one pool. What it
does to the machine is what the same calls do to memory; its devices and its tracking have no part
in it.

- `HostCall.perform_memory`: a call of a host is a call on its memory;
- `Layout.Private`: a space leads to no frames but those that were taken for its own pages;
- `Host.run_separated`: after any calls of a host all its spaces are private.
-/

namespace PagedMemory

/-- A machine, with the pool and the spaces for its programs. -/
structure Host (δ : Type) where
  machine : Machine δ
  pool : Pool
  spaces : List AddressSpace

/-- A call that creates a space, or loads a program into a space. Each load brings its own files. -/
inductive HostCall : Type 1
  | create
  | load {φ : Type} [FileStore φ] (space : Nat) (loader : Loader) (files : φ) (name : String)

namespace Host

variable {δ φ : Type} [FileStore φ]

/-- A machine without devices, on which nothing was created. -/
def start (ram : Ram) (tracking : Tracking) (range : Range) : Host δ :=
  ⟨⟨.ofRam ram, tracking⟩, .ofRange range, []⟩

/-- What the calls of the host work on. -/
def memory (host : Host δ) : Memory := ⟨host.machine.bus.ram, host.pool, host.spaces⟩

/-- The host of a layout, without devices. -/
def ofLayout (l : Layout) (spaces : List AddressSpace) (tracking : Tracking) : Host δ :=
  ⟨⟨.ofRam l.ram, tracking⟩, l.pool, spaces⟩

theorem start_eq_ofLayout (ram : Ram) (tracking : Tracking) (range : Range) :
    (start ram tracking range : Host δ) = ofLayout (Layout.start ram range) [] tracking :=
  rfl

theorem eq_ofLayout {host : Host δ} {l : Layout} {spaces : List AddressSpace} {tracking : Tracking}
    (hm : host.memory = l.memory spaces) (ht : host.machine.bus.table = .empty)
    (htr : host.machine.tracking = tracking) : host = ofLayout l spaces tracking := by
  obtain ⟨⟨⟨ram, table⟩, tracking'⟩, pool, spaces'⟩ := host
  cases hm
  cases ht
  cases htr
  rfl

/-- Creates a space, which gets the next number. -/
def create : Op (Host δ) Unit := do
  let space ← .within (fun host => ((host.machine, host.pool), host.spaces))
    (fun (machine, pool) spaces => ⟨machine, pool, spaces⟩) Machine.createSpace
  .update fun host => { host with spaces := host.spaces ++ [space] }

/-- Loads a program into the space `i`. -/
def load (i : Nat) (loader : Loader) (files : φ) (name : String) : Op (Host δ) Image := do
  let space ← .query fun host => match host.spaces[i]? with
    | some space => .ok space
    | none => .error (.badDescriptor i)
  .within (fun host => ((files, host.machine, host.pool), host.spaces))
    (fun (_, machine, pool) spaces => ⟨machine, pool, spaces⟩)
    (Machine.onMemory (loader.load space name))

end Host

namespace HostCall

variable {δ : Type}

/-- Makes the call. The files of a load are its own: what is left of them is dropped, and so is the
image. -/
def perform : HostCall → Op (Host δ) Unit
  | .create => Host.create
  | @load _ _ i loader files name => do
    let _ ← Host.load i loader files name
    pure ()

/-- The call on memory that the host makes. -/
def onMemory : HostCall → Call
  | .create => .edit .create
  | @load _ _ i loader files name => .load i loader files name

/-- A call of a host is a call on its memory, and leaves devices and tracking alone. -/
theorem perform_memory (call : HostCall) (host : Host δ) :
    (call.perform.run host).state.memory = (call.onMemory.perform.run host.memory).state ∧
      (call.perform.run host).state.machine.bus.table = host.machine.bus.table ∧
      (call.perform.run host).state.machine.tracking = host.machine.tracking := by
  obtain ⟨⟨⟨ram, table⟩, tracking⟩, pool, spaces⟩ := host
  cases call with
  | create =>
    simp only [perform, onMemory, Call.perform, Edit.perform, Host.create, Memory.create,
      Memory.onFrames, Machine.createSpace, Op.run_bind, Op.run_within, Machine.run_onRamWith,
      Host.memory]
    rcases AddressSpace.create.run (ram, pool) with ⟨_ | space, ⟨ram', pool'⟩, es⟩
    · exact ⟨rfl, rfl, rfl⟩
    · exact ⟨rfl, rfl, rfl⟩
  | @load φ _ i loader files name =>
    simp only [perform, onMemory, Call.perform, Host.load, Memory.load, Memory.space, Op.run_bind,
      Op.run_query, Host.memory]
    cases spaces[i]? with
    | none => exact ⟨rfl, rfl, rfl⟩
    | some space =>
      simp only [Outcome.andThen_ok, Outcome.after_nil, Op.run_within, Machine.run_onMemory]
      rcases (loader.load space name).run (files, ram, pool) with
        ⟨_ | image, ⟨files', ram', pool'⟩, es⟩
      · exact ⟨rfl, rfl, rfl⟩
      · exact ⟨rfl, rfl, rfl⟩

/-- What a call makes of the host of a layout is told by memory. -/
theorem state_ofLayout {l l' : Layout} {spaces spaces' : List AddressSpace} (call : HostCall)
    (h : (call.onMemory.perform.run (l.memory spaces)).state = l'.memory spaces')
    (tracking : Tracking) :
    (call.perform.run (Host.ofLayout l spaces tracking : Host δ)).state =
      Host.ofLayout l' spaces' tracking := by
  obtain ⟨hmemory, htable, htracking⟩ :=
    call.perform_memory (Host.ofLayout l spaces tracking : Host δ)
  exact Host.eq_ofLayout (hmemory.trans h) htable htracking

end HostCall

namespace Layout

variable {spaces : List AddressSpace} {l l' : Layout} {i j : Nat} {space : AddressSpace}
  {touched : Nat → Prop}

/-! ## Frames that belong to one page -/

/-- Every page of the space `i` that has a frame has one that was taken for it. -/
def Private (l : Layout) (i : Nat) (space : AddressSpace) : Prop :=
  ∀ vaddr frame, l.ram.frame? space.directory vaddr = some frame →
    l.use (Page.number frame) = some (.page i (Page.number vaddr))

/-- A space on which no work was done stays private. -/
theorem Private.evolves (hp : l.Private j space) (h : Evolves spaces i touched l l')
    (hj : spaces[j]? = some space) (hn : j = i → ∀ n, ¬ touched n) : l'.Private j space := by
  intro vaddr frame hf
  rw [h.frame j space vaddr hj fun hji => hn hji _] at hf
  exact h.use _ _ (hp vaddr frame hf)

/-- So does one into which something was loaded. -/
theorem Private.loads (hp : l.Private i space) (h : Loads spaces i space touched l l') :
    l'.Private i space := by
  intro vaddr frame hf
  rcases h.owned vaddr frame hf with hf | hu
  · exact h.use _ _ (hp vaddr frame hf)
  · exact hu

end Layout

namespace HostCall

open Layout

variable {spaces : List AddressSpace} {l : Layout}

/-- Memory has a valid layout, in which all spaces are private. -/
def Separated (m : Memory) : Prop :=
  ∃ (l : Layout) (spaces : List AddressSpace), m = l.memory spaces ∧ l.Valid spaces ∧
    ∀ i space, spaces[i]? = some space → l.Private i space

/-- Every call of a host keeps the spaces private, whatever comes of it. -/
theorem onMemory_separated (hl : l.Valid spaces)
    (hp : ∀ i space, spaces[i]? = some space → l.Private i space) (call : HostCall) :
    Op.Meets (· = l.memory spaces) call.onMemory.perform (fun _ => Separated)
      (fun _ => Separated) := by
  cases call with
  | create =>
    refine (Memory.create_meets hl).weaken (fun _ h => h) ?_ ?_
    · rintro _ _ ⟨l', new, rfl, hl', hev, hnew, -⟩
      refine ⟨l', _, rfl, hl', ?_⟩
      intro j space hj
      rcases getElem?_concat_eq_some hj with hj | ⟨rfl, rfl⟩
      · exact (hp j space hj).evolves hev hj fun _ _ => not_false
      · intro vaddr frame hf
        rw [hnew] at hf
        cases hf
    · rintro _ _ ⟨-, l', rfl, -, hev⟩
      exact ⟨l', _, rfl, hev.valid, fun j space hj =>
        (hp j space hj).evolves hev hj fun _ _ => not_false⟩
  | @load φ _ i loader files name =>
    have hafter : ∀ {l' : Layout} {space : AddressSpace} {touched : Nat → Prop},
        spaces[i]? = some space → Loads spaces i space touched l l' →
          Separated (l'.memory spaces) := by
      intro l' space touched hi h
      refine ⟨l', spaces, rfl, h.valid, ?_⟩
      intro j space' hj
      by_cases hji : j = i
      · subst hji
        obtain rfl := Option.some.inj (hi.symm.trans hj)
        exact (hp j space hj).loads h
      · exact (hp j space' hj).evolves h.toEvolves hj fun h => absurd h hji
    have hload := Memory.load_meets (FileContract.any φ name) hl i loader files trivial
    refine Op.Meets.bind (hload.weaken (fun _ h => h) (fun _ _ h => h) ?_) fun _ => Op.Meets.pure ?_
    · rintro _ _ ⟨l', rfl, rfl | ⟨space, hi, h⟩⟩
      · exact ⟨_, spaces, rfl, hl, hp⟩
      · exact hafter hi h
    · rintro _ ⟨l', space, hi, rfl, h⟩
      exact hafter hi h

end HostCall

namespace Host

variable {δ : Type}

/-- The host that calls lead to, made one after the other, whatever comes of each. -/
def run (host : Host δ) (calls : List HostCall) : Host δ :=
  (Op.runAll HostCall.perform host calls).1

theorem run_cons (host : Host δ) (call : HostCall) (calls : List HostCall) :
    host.run (call :: calls) = (call.perform.run host).state.run calls := by
  rw [run, run, Op.state_runAll, Op.state_runAll, List.foldl_cons]

/-- After any calls the spaces of the host are private, and the machine still has no devices. -/
theorem run_separated (ram : Ram) (tracking : Tracking) (range : Range) (calls : List HostCall) :
    ∃ (l : Layout) (spaces : List AddressSpace),
      (start ram tracking range : Host δ).run calls = ofLayout l spaces tracking ∧
      l.Valid spaces ∧ ∀ i space, spaces[i]? = some space → l.Private i space := by
  refine Op.runAll_invariant (f := HostCall.perform) (s := (start ram tracking range : Host δ))
    (I := fun host _ => ∃ (l : Layout) (spaces : List AddressSpace),
      host = ofLayout l spaces tracking ∧ l.Valid spaces ∧
      ∀ i space, spaces[i]? = some space → l.Private i space) ?_ ?_ calls
  · refine ⟨Layout.start ram range, [], rfl, Layout.valid_start ram range, ?_⟩
    intro i space hi
    cases hi
  · rintro _ _ call ⟨l, spaces, rfl, hl, hp⟩
    obtain ⟨l', spaces', hm, hl', hp'⟩ :=
      (HostCall.onMemory_separated hl hp call).outcome (R := fun _ => HostCall.Separated) rfl
    exact ⟨l', spaces', call.state_ofLayout hm tracking, hl', hp'⟩

end Host

end PagedMemory
