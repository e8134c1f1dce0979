import PagedMemory.Proofs.ByteStore
import PagedMemory.Proofs.Marks
import PagedMemory.Proofs.Traces

/-!
# What a walk does to the bus

The tables may lie anywhere: in RAM, in the regions of devices that notice when they are read, or
one here and the other there. A walk is told by its trace, the accesses that it makes in order, each
with the place that serves it and what came of it.

- `BusStep.Runs`: an access, and how it is made;
- `Bus.DoneBy`: the accesses of a trace are all that an operation does to a bus;
- `Bus.Passes`: what was read can be stored to, at the same place;
- `Fetched`, `WalkTrace`, `TranslateTrace`: the traces of an entry, of a walk and of a translation;
- `translate_traced`: every translation has such a trace.
-/

namespace PagedMemory

namespace Bus

variable {δ : Type} {bus : Bus δ} {addr slot : UInt32} {server : Option Nat}

/-! ## Places -/

/-- The place that serves an address is known from the claims alone. -/
theorem owner?_eq_findIdx? (bus : Bus δ) (addr : UInt32) :
    bus.owner? addr = bus.table.claims.findIdx? fun claim => addr ∈ claim.2 := by
  rw [owner?, RegionTable.find?, RegionTable.claims]
  induction bus.table.regions with
  | nil => rfl
  | cons region rest ih =>
    rw [List.map_cons, List.findIdx?_cons, ← ih, RegionTable.locate]
    by_cases h : addr ∈ region.range
    · simp [h]
    · simp [h, Function.comp_def]

/-- Words at `slot` pass the check of the bus, and `server` serves them. -/
def Passes (bus : Bus δ) (slot : UInt32) (server : Option Nat) : Prop :=
  bus.ram.Fits slot 4 ∧ bus.owner? slot = server

variable [Device δ]

/-- A word that passes the check is read, and at most a device takes part in it. -/
theorem exists_read (h : bus.ram.Fits slot 4) : ∃ word bus' es,
    (read slot 4).run bus = ⟨.ok word, bus', es⟩ ∧ Event.traffic es = es := by
  have hw : bus.ram.checkWord slot 4 = .ok () := Ram.checkWord_eq_ok_iff.2 ⟨.inr (.inr rfl), h⟩
  cases hf : bus.table.find? slot with
  | none => exact ⟨_, _, _, run_read_of_not_find hw hf, rfl⟩
  | some found => exact ⟨_, _, _, run_read_of_find hw hf, rfl⟩

/-- A word that passes the check is stored, and at most a device takes part in it. -/
theorem exists_write (h : bus.ram.Fits slot 4) (data : UInt32) : ∃ bus' es,
    (write slot 4 data).run bus = ⟨.ok (), bus', es⟩ ∧ Event.traffic es = es := by
  have hw : bus.ram.checkWord slot 4 = .ok () := Ram.checkWord_eq_ok_iff.2 ⟨.inr (.inr rfl), h⟩
  cases hf : bus.table.find? slot with
  | none => exact ⟨_, _, run_write_of_not_find hw hf data, rfl⟩
  | some found => exact ⟨_, _, run_write_of_find hw hf data, rfl⟩

end Bus

/-! ## Steps -/

/-- An access to the bus. -/
structure BusStep where
  call : BusCall
  /-- The place of the device that serves it; none if RAM does. -/
  server : Option Nat
  /-- What came of it. A read answers the word. -/
  answer : Except Error (Option UInt32)
  /-- The part that the device took in it. -/
  events : List Event

namespace BusStep

variable {δ : Type} [Device δ] {step : BusStep} {m m' : Bus δ}

/-- The access leads from one bus to another. -/
def Runs (step : BusStep) (m m' : Bus δ) : Prop :=
  m.owner? step.call.addr = step.server ∧ step.call.perform.run m = ⟨step.answer, m', step.events⟩

/-- An access leaves the size of RAM and all claims as they are. -/
theorem Runs.frame (h : step.Runs m m') :
    m'.ram.size = m.ram.size ∧ m'.table.claims = m.table.claims := by
  have hstate : (step.call.perform.run m).state = m' := by rw [h.2]
  rw [← hstate]
  cases step.call with
  | read addr len =>
    obtain ⟨hram, hclaims⟩ := Bus.read_frame m addr len
    rw [BusCall.perform, Op.state_map, hram]
    exact ⟨rfl, hclaims⟩
  | write addr len data =>
    rw [BusCall.perform, Op.state_map]
    exact Bus.write_frame m addr len data

/-- So what passes the check before an access passes it afterwards. -/
theorem Runs.passes (h : step.Runs m m') {slot : UInt32} {server : Option Nat}
    (hp : m.Passes slot server) : m'.Passes slot server := by
  obtain ⟨hsize, hclaims⟩ := h.frame
  refine ⟨?_, ?_⟩
  · rw [Ram.Fits, hsize]
    exact hp.1
  · rw [Bus.owner?_eq_findIdx?, hclaims, ← Bus.owner?_eq_findIdx?]
    exact hp.2

end BusStep

/-! ## Traces -/

namespace Bus

variable {δ α β : Type} [Device δ] {bus : Bus δ} {slot : UInt32} {server : Option Nat}
  {steps steps' : List BusStep}

/-- The accesses are all that an operation does to the bus: they lead to the state that it leaves,
and devices take part in nothing else. -/
structure DoneBy (steps : List BusStep) (bus : Bus δ) (o : Outcome (Bus δ) α) : Prop where
  performs : Op.Performs BusStep.Runs steps bus o.state
  traffic : Event.traffic o.events = steps.flatMap (·.events)

/-- What passes the check passes it in the other bus. -/
def Keeps (bus bus' : Bus δ) : Prop :=
  ∀ slot server, bus.Passes slot server → bus'.Passes slot server

/-- No access changes what passes the check. -/
theorem DoneBy.keeps {o : Outcome (Bus δ) α} (h : DoneBy steps bus o) : bus.Keeps o.state :=
  fun _ _ hp => h.performs.invariant (fun _ _ _ _ hstep => hstep.passes) hp

/-- A run of the operation has a trace of which `T` holds, together with its result. -/
def Traced (op : Op (Bus δ) α) (bus : Bus δ) (T : List BusStep → Except Error α → Prop) : Prop :=
  ∃ steps, DoneBy steps bus (op.run bus) ∧ T steps (op.run bus).result

variable {op : Op (Bus δ) α} {T T' : List BusStep → Except Error α → Prop}
  {V : List BusStep → Except Error β → Prop}

/-- An operation that leaves the bus alone. -/
theorem Traced.none {r : Except Error α} {es : List Event} (hrun : op.run bus = ⟨r, bus, es⟩)
    (hes : Event.traffic es = []) (hT : T [] r) : Traced op bus T := by
  refine ⟨[], ?_, ?_⟩
  · rw [hrun]
    exact ⟨.nil bus, hes⟩
  · rw [hrun]
    exact hT

/-- An operation that is an access by itself, whatever it makes of the answer. -/
theorem Traced.single {step : BusStep} {bus' : Bus δ} {r : Except Error α}
    (hrun : op.run bus = ⟨r, bus', step.events⟩) (hstep : step.Runs bus bus')
    (hes : Event.traffic step.events = step.events) (hT : T [step] r) : Traced op bus T := by
  refine ⟨[step], ?_, ?_⟩
  · rw [hrun]
    refine ⟨.cons hstep (.nil _), ?_⟩
    rw [hes, List.flatMap_singleton]
  · rw [hrun]
    exact hT

/-- A program ends where its first part fails, or it goes on with what that has left. -/
theorem Traced.bind {f : α → Op (Bus δ) β} (h : Traced op bus T)
    (herr : ∀ us e, T us (.error e) → V us (.error e))
    (hok : ∀ us a bus', T us (.ok a) → bus.Keeps bus' →
      Traced (f a) bus' fun vs r => V (us ++ vs) r) : Traced (op >>= f) bus V := by
  obtain ⟨us, hdone, hT⟩ := h
  unfold Traced
  rw [Op.run_bind]
  rcases hop : op.run bus with ⟨e | a, bus', es⟩ <;> rw [hop] at hdone hT
  · exact ⟨us, ⟨hdone.performs, hdone.traffic⟩, herr us e hT⟩
  · obtain ⟨vs, hdone', hV⟩ := hok us a bus' hT hdone.keeps
    rw [Outcome.andThen_ok]
    refine ⟨us ++ vs, ⟨hdone.performs.append hdone'.performs, ?_⟩, hV⟩
    rw [Outcome.events_after, Event.traffic_append, hdone'.traffic, List.flatMap_append]
    exact congrArg (· ++ _) hdone.traffic

/-- An entry is read once, and it must be present. -/
inductive Fetched (level : Level) (vaddr slot : UInt32) : BusStep → Except Error Entry → Prop
  | refused (server : Option Nat) : Fetched level vaddr slot
      ⟨.read slot 4, server, .error (.outOfBounds slot 4), []⟩ (.error (.outOfBounds slot 4))
  | absent (server : Option Nat) (entry : Entry) (es : List Event) :
      entry.has .present = false → Fetched level vaddr slot
        ⟨.read slot 4, server, .ok (some entry.bits), es⟩
        (.error (.notPresent level vaddr entry.bits))
  | present (server : Option Nat) (entry : Entry) (es : List Event) :
      entry.has .present = true → Fetched level vaddr slot
        ⟨.read slot 4, server, .ok (some entry.bits), es⟩ (.ok entry)

/-- The store of a word into the place that was read before, if it is called for. -/
def storeIf (p : Prop) [Decidable p] (slot word : UInt32) (read : BusStep) (es : List Event) :
    List BusStep :=
  if p then [⟨.write slot 4 word, read.server, .ok none, es⟩] else []

/-- The traces of a walk. The table is looked for only in a directory entry that is present, and
stores are made only where both entries are: that of the directory entry if it was not accessed
before, then that of the table entry if the marks are new there. They do not fail. -/
inductive WalkTrace (directory : UInt32) (tracking : Tracking) (access : Access) (vaddr : UInt32) :
    List BusStep → Except Error UInt32 → Prop
  | directory {read : BusStep} {e : Error} :
      Fetched .directory vaddr (Entry.directorySlot directory vaddr) read (.error e) →
      WalkTrace directory tracking access vaddr [read] (.error e)
  | table {read read' : BusStep} {pde : Entry} {e : Error} :
      Fetched .directory vaddr (Entry.directorySlot directory vaddr) read (.ok pde) →
      Fetched .table vaddr (Entry.tableSlot pde.frame vaddr) read' (.error e) →
      WalkTrace directory tracking access vaddr [read, read'] (.error e)
  | page {read read' : BusStep} {pde pte : Entry} (es es' : List Event) :
      Fetched .directory vaddr (Entry.directorySlot directory vaddr) read (.ok pde) →
      Fetched .table vaddr (Entry.tableSlot pde.frame vaddr) read' (.ok pte) →
      WalkTrace directory tracking access vaddr
        ([read, read'] ++
          storeIf (tracking = .writeBack ∧ pde.has .accessed = false)
            (Entry.directorySlot directory vaddr) (pde.bits ||| Entry.marks .read) read es ++
          storeIf (tracking = .writeBack ∧ pte.bits ||| Entry.marks access ≠ pte.bits)
            (Entry.tableSlot pde.frame vaddr) (pte.bits ||| Entry.marks access) read' es')
        (.ok (pte.resolve vaddr))

/-- The traces of a translation. With paging off there is no access, and the address is its own. -/
inductive TranslateTrace (regs : Registers) (tracking : Tracking) (access : Access)
    (vaddr : UInt32) : List BusStep → Except Error UInt32 → Prop
  | flat : regs.pagingEnabled = false → TranslateTrace regs tracking access vaddr [] (.ok vaddr)
  | paged {steps : List BusStep} {r : Except Error UInt32} : regs.pagingEnabled = true →
      WalkTrace regs.directory tracking access vaddr steps r →
      TranslateTrace regs tracking access vaddr steps r

/-! ## Running a walk -/

theorem fetch_traced (bus : Bus δ) (level : Level) (vaddr slot : UInt32) :
    Traced (fetch level vaddr slot) bus fun steps r => ∃ read, steps = [read] ∧
      Fetched level vaddr slot read r ∧ ∀ entry, r = .ok entry → bus.Passes slot read.server := by
  by_cases hfit : bus.ram.Fits slot 4
  · obtain ⟨word, bus', es, hread, hes⟩ := exists_read hfit
    have hrun : (fetch level vaddr slot).run bus =
        ⟨if (⟨word⟩ : Entry).has .present then .ok ⟨word⟩
          else .error (.notPresent level vaddr word), bus', es⟩ := by
      rw [fetch, Op.run_bind, hread, Outcome.andThen_ok]
      by_cases hp : (⟨word⟩ : Entry).has .present = true <;> simp [hp]
    have hstep : BusStep.Runs ⟨.read slot 4, bus.owner? slot, .ok (some word), es⟩ bus bus' :=
      ⟨rfl, Op.run_map_of_ok hread⟩
    refine Traced.single hrun hstep hes ⟨_, rfl, ?_, fun _ _ => ⟨hfit, rfl⟩⟩
    cases hp : (⟨word⟩ : Entry).has .present with
    | true => exact Fetched.present _ ⟨word⟩ es hp
    | false => exact Fetched.absent _ ⟨word⟩ es hp
  · have hw : bus.ram.checkWord slot 4 = .error (.outOfBounds slot 4) :=
      Ram.checkWord_eq_error_iff.2 (.inr ⟨.inr (.inr rfl), Nat.lt_of_not_le hfit, rfl⟩)
    have hread : (read slot 4).run bus = ⟨.error (.outOfBounds slot 4), bus, []⟩ :=
      run_read_of_refused hw
    have hrun : (fetch level vaddr slot).run bus = ⟨.error (.outOfBounds slot 4), bus, []⟩ := by
      rw [fetch, Op.run_bind, hread, Outcome.andThen_error]
    have hstep : BusStep.Runs ⟨.read slot 4, bus.owner? slot, .error (.outOfBounds slot 4), []⟩
        bus bus := ⟨rfl, Op.run_map_of_error hread⟩
    exact Traced.single hrun hstep rfl ⟨_, rfl, .refused _, fun _ he => by cases he⟩

/-- A store goes where the entry was read from, and it cannot fail there. -/
theorem track_traced {read : BusStep} (h : bus.Passes slot read.server) (tracking : Tracking)
    (entry marked : Entry) :
    Traced (track tracking slot entry marked) bus fun steps r => r = .ok () ∧ ∃ es,
      steps = storeIf (tracking = .writeBack ∧ marked ≠ entry) slot marked.bits read es := by
  by_cases hstore : tracking = .writeBack ∧ marked ≠ entry
  · obtain ⟨rfl, hne⟩ := hstore
    obtain ⟨bus', es, hwrite, hes⟩ := exists_write h.1 marked.bits
    have hrun : (track .writeBack slot entry marked).run bus = ⟨.ok (), bus', es⟩ := by
      rw [track, if_neg hne, hwrite]
    have hstep : BusStep.Runs ⟨.write slot 4 marked.bits, read.server, .ok none, es⟩ bus bus' :=
      ⟨h.2, Op.run_map_of_ok hwrite⟩
    refine Traced.single hrun hstep hes ⟨rfl, es, ?_⟩
    rw [storeIf, if_pos ⟨rfl, hne⟩]
  · have hrun : (track tracking slot entry marked).run bus = ⟨.ok (), bus, []⟩ := by
      cases tracking with
      | discard => rfl
      | writeBack => rw [track, if_pos (by simpa using hstore), Op.run_pure]
    refine Traced.none hrun rfl ⟨rfl, [], ?_⟩
    rw [storeIf, if_neg hstore]

/-- A read marks nothing new exactly where the entry was accessed before. -/
theorem or_marks_read_eq_self_iff {entry : Entry} :
    entry.bits ||| Entry.marks .read = entry.bits ↔ entry.has .accessed = true := by
  rw [← Entry.touched_eq_self_iff]
  constructor
  · intro heq
    rw [← heq]
    simp [Entry.touched]
  · exact Entry.mark_eq_self

/-- A walk does to the bus what its trace says, and nothing else. -/
theorem walk_traced (bus : Bus δ) (directory : UInt32) (tracking : Tracking) (access : Access)
    (vaddr : UInt32) :
    Traced (walk directory tracking access vaddr) bus
      (WalkTrace directory tracking access vaddr) := by
  refine (fetch_traced bus _ _ _).bind ?_ ?_
  · rintro _ e ⟨read, rfl, hread, -⟩
    exact .directory hread
  · rintro _ pde bus₁ ⟨read, rfl, hread, hpasses⟩ hkeeps
    refine (fetch_traced bus₁ _ _ _).bind ?_ ?_
    · rintro _ e ⟨read', rfl, hread', -⟩
      exact .table hread hread'
    · rintro _ pte bus₂ ⟨read', rfl, hread', hpasses'⟩ hkeeps'
      -- both slots were read, and reading the one does not change what becomes of the other
      have hdirectory := hkeeps' _ _ (hkeeps _ _ (hpasses pde rfl))
      have htable := hkeeps' _ _ (hpasses' pte rfl)
      refine (track_traced hdirectory _ _ _).bind (fun _ _ h => nomatch h.1) ?_
      rintro _ _ bus₃ ⟨-, es, rfl⟩ hkeeps''
      refine (track_traced (hkeeps'' _ _ htable) _ _ _).bind (fun _ _ h => nomatch h.1) ?_
      rintro _ _ bus₄ ⟨-, es', rfl⟩ -
      refine Traced.none (Op.run_bind _ _ _) rfl ?_
      have htrace : WalkTrace directory tracking access vaddr _ _ := .page es es' hread hread'
      simpa [or_marks_read_eq_self_iff, Entry.touched_eq_self_iff, Entry.bits_touched] using htrace

/-- So does a translation. -/
theorem translate_hasTrace (bus : Bus δ) (regs : Registers) (tracking : Tracking) (access : Access)
    (vaddr : UInt32) :
    Traced (translate regs tracking access vaddr) bus
      (TranslateTrace regs tracking access vaddr) := by
  unfold translate
  cases hp : regs.pagingEnabled with
  | false => exact Traced.none (Op.run_pure _ _) rfl (.flat hp)
  | true =>
    obtain ⟨steps, hdone, htrace⟩ := walk_traced bus regs.directory tracking access vaddr
    exact ⟨steps, hdone, .paged hp htrace⟩

/-! ## Walks that store nothing -/

/-- A read changes no byte of RAM, and if a device takes part in it, it is read too. -/
theorem frame_of_read {step : BusStep} {bus' : Bus δ} (h : step.Runs bus bus')
    (hread : step.call = .read slot 4) : bus'.ram = bus.ram ∧
      ∀ event ∈ step.events, ∃ name value, event = .deviceRead name slot 4 value := by
  have hrun := h.2
  rw [hread] at hrun
  cases hw : bus.ram.checkWord slot 4 with
  | error e =>
    rw [BusCall.run_of_refused hw, Outcome.mk.injEq] at hrun
    obtain ⟨-, rfl, hes⟩ := hrun
    simp [← hes]
  | ok u =>
    cases hf : bus.table.find? slot with
    | none =>
      rw [BusCall.run_of_not_find hw hf, BusCall.stored, Outcome.mk.injEq] at hrun
      obtain ⟨-, rfl, hes⟩ := hrun
      simp [← hes]
    | some found =>
      rw [BusCall.run_of_find hw hf, BusCall.served, Outcome.mk.injEq] at hrun
      obtain ⟨-, rfl, hes⟩ := hrun
      simp [← hes]

/-- Nor do any number of reads. Induction on the accesses. -/
theorem frame_of_performs {bus' : Bus δ} (h : Op.Performs BusStep.Runs steps bus bus')
    (hreads : ∀ step ∈ steps, ∃ slot, step.call = .read slot 4) : bus'.ram = bus.ram ∧
      ∀ step ∈ steps, ∀ event ∈ step.events, ∃ name slot value,
        event = .deviceRead name slot 4 value := by
  induction h with
  | nil bus => exact ⟨rfl, fun _ hstep => absurd hstep List.not_mem_nil⟩
  | cons hstep _ ih =>
    obtain ⟨slot, hslot⟩ := hreads _ List.mem_cons_self
    obtain ⟨hram, hevents⟩ := frame_of_read hstep hslot
    obtain ⟨hram', hevents'⟩ := ih fun step hmem => hreads step (List.mem_cons_of_mem _ hmem)
    refine ⟨hram'.trans hram, ?_⟩
    intro step hmem event hevent
    rcases List.mem_cons.1 hmem with rfl | hmem
    · obtain ⟨name, value, rfl⟩ := hevents event hevent
      exact ⟨name, slot, value, rfl⟩
    · exact hevents' step hmem event hevent

/-- An operation that only reads changes no byte of RAM, and no device gets a write. -/
theorem DoneBy.frame_of_reads {o : Outcome (Bus δ) α} (h : DoneBy steps bus o)
    (hreads : ∀ step ∈ steps, ∃ slot, step.call = .read slot 4) :
    o.state.ram = bus.ram ∧ ∀ name addr len data, .deviceWrite name addr len data ∉ o.events := by
  obtain ⟨hram, hevents⟩ := frame_of_performs h.performs hreads
  refine ⟨hram, ?_⟩
  intro name addr len data hmem
  have htraffic : Event.deviceWrite name addr len data ∈ Event.traffic o.events :=
    List.mem_filter.2 ⟨hmem, rfl⟩
  rw [h.traffic, List.mem_flatMap] at htraffic
  obtain ⟨step, hstep, hevent⟩ := htraffic
  obtain ⟨_, _, _, heq⟩ := hevents step hstep _ hevent
  cases heq

theorem Fetched.read {level : Level} {vaddr : UInt32} {read : BusStep} {r : Except Error Entry}
    (h : Fetched level vaddr slot read r) : ∃ slot, read.call = .read slot 4 := by
  cases h <;> exact ⟨slot, rfl⟩

/-- A walk stores nothing if it fails, or if its marks are to be dropped. -/
theorem WalkTrace.reads {directory vaddr : UInt32} {tracking : Tracking} {access : Access}
    {r : Except Error UInt32} (h : WalkTrace directory tracking access vaddr steps r)
    (hr : tracking = .discard ∨ ∃ e, r = .error e) :
    ∀ step ∈ steps, ∃ slot, step.call = .read slot 4 := by
  cases h with
  | directory hread => simpa using hread.read
  | table hread hread' => simpa using ⟨hread.read, hread'.read⟩
  | page es es' hread hread' =>
    rcases hr with rfl | ⟨e, he⟩
    · simpa [storeIf] using ⟨hread.read, hread'.read⟩
    · cases he

theorem TranslateTrace.reads {regs : Registers} {vaddr : UInt32} {tracking : Tracking}
    {access : Access} {r : Except Error UInt32}
    (h : TranslateTrace regs tracking access vaddr steps r)
    (hr : regs.pagingEnabled = false ∨ tracking = .discard ∨ ∃ e, r = .error e) :
    ∀ step ∈ steps, ∃ slot, step.call = .read slot 4 := by
  cases h with
  | flat _ => exact fun _ hstep => absurd hstep List.not_mem_nil
  | paged hp hwalk =>
    rw [hp] at hr
    exact hwalk.reads (hr.resolve_left nofun)

/-- Such a translation changes no byte of RAM, and no device gets a write. -/
theorem translate_frame {regs : Registers} {tracking : Tracking} {access : Access} {vaddr : UInt32}
    (h : regs.pagingEnabled = false ∨ tracking = .discard ∨
      ∃ e, ((translate regs tracking access vaddr).run bus).result = .error e) :
    let o := (translate regs tracking access vaddr).run bus
    o.state.ram = bus.ram ∧ ∀ name addr len data, .deviceWrite name addr len data ∉ o.events := by
  obtain ⟨steps, hdone, htrace⟩ := translate_hasTrace bus regs tracking access vaddr
  exact hdone.frame_of_reads (htrace.reads h)

/-- With paging off a translation answers the address and makes no access. Otherwise the entry of
the directory is read once, and that of the table once if the first one is present; if both are, and
tracking asks for it, first the one is stored and then the other, each if a mark is new in the value
that was read, each at the place that it was read from, and without fail. A translation that fails
has changed no byte of RAM, and no device got a write. -/
theorem translate_traced (bus : Bus δ) (regs : Registers) (tracking : Tracking) (access : Access)
    (vaddr : UInt32) :
    let o := (translate regs tracking access vaddr).run bus
    (∃ steps, Op.Performs BusStep.Runs steps bus o.state ∧
      Event.traffic o.events = steps.flatMap (·.events) ∧
      TranslateTrace regs tracking access vaddr steps o.result) ∧
    ∀ e, o.result = .error e → o.state.ram = bus.ram ∧
      ∀ name addr len data, .deviceWrite name addr len data ∉ o.events := by
  obtain ⟨steps, hdone, htrace⟩ := translate_hasTrace bus regs tracking access vaddr
  refine ⟨⟨steps, hdone.performs, hdone.traffic, htrace⟩, ?_⟩
  intro e he
  exact translate_frame (.inr (.inr ⟨e, he⟩))

end Bus

end PagedMemory
