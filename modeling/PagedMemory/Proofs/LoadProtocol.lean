import PagedMemory.Files.Faulty
import PagedMemory.Proofs.LoadTraces
import PagedMemory.Proofs.RamdiskContract

/-!
# The protocol of a load

A load opens a file, asks for its size, reads it a page at a time, and closes it, whatever happens
in between, unless the size is so large that the program ends. This holds of every file store and
every source of frames: they may answer as they like, and fail at any call.

- `LoadProtocol`: what a load does with a file that it has opened, and which error it returns;
- `Ramdisk.get?_opened_load`: a RAM disk has the same open files as before;
- `load_protocol`: both, of every load, and the one way to end without closing the file;
- `load_protocol_hugeDisk`: a file that stays open.
-/

namespace PagedMemory

open LoadStep Op

/-- A file was opened under `fd`. When asked for its size, the store answered `told`; after the
steps `rest` it was told to close the file, and answered `closed`; and the load ended with
`result`. -/
structure LoadProtocol (loader : Loader) (fd : Nat) (told : Except Error Nat)
    (rest : List LoadStep) (closed : Except Error Unit) (result : Except Error Image) : Prop where
  /-- Without a size nothing more is done. -/
  unsized : ∀ e, told = .error e → rest = []
  /-- All other calls on the store read a page. -/
  reads : ∀ call ∈ rest.filterMap LoadStep.call?, ∃ r, call = .readAt fd Page.size r
  /-- There are no more of them than the file has pages. -/
  count : ∀ size, told = .ok size →
    (rest.filterMap LoadStep.call?).length ≤ Page.count size
  /-- Each comes after its page was given a frame. -/
  mapped : ReadsMapped loader 0 rest
  /-- The first error is returned, whether or not the file could be closed. -/
  failed : ∀ e, (LoadStep.file (.sizeAt fd told) :: rest).findSome? LoadStep.error? = some e →
    result = .error e
  /-- If that is all that failed, the error of closing the file is returned. -/
  unclosed : (LoadStep.file (.sizeAt fd told) :: rest).findSome? LoadStep.error? = none →
    ∀ e, closed = .error e → result = .error e
  /-- The load succeeds just when everything did. -/
  loaded : (∃ image, result = .ok image) ↔
    (LoadStep.file (.sizeAt fd told) :: rest).findSome? LoadStep.error? = none ∧ closed = .ok ()

/-- The trace of an open file begins with a call for its size. -/
theorem BodyTrace.head {loader : Loader} {fd : Nat} {body : List LoadStep}
    {r : Except Error Image} (h : BodyTrace loader fd body r) : ∃ told rest,
      body = .file (.sizeAt fd told) :: rest ∧ (∀ e, told = .error e → rest = []) ∧
      (∀ call ∈ rest.filterMap LoadStep.call?, ∃ a, call = .readAt fd Page.size a) ∧
      (∀ size, told = .ok size →
        (rest.filterMap LoadStep.call?).length ≤ Page.count size) ∧
      ReadsMapped loader 0 rest := by
  cases h with
  | sizeAt e =>
    refine ⟨_, [], rfl, fun _ _ => rfl, nofun, fun _ _ => Nat.zero_le _, ?_⟩
    intro before after fd' len a hsteps
    simp at hsteps
  | @pages size steps r h =>
    obtain ⟨hreads, hlen, hmapped⟩ := h.reads
    refine ⟨_, .checkSums size (.ok ()) :: steps, rfl, nofun, hreads, ?_, hmapped.cons rfl⟩
    rintro _ ⟨⟩
    exact hlen

/-- The sums of a file that is loaded fit. -/
theorem BodyTrace.sumsFit {φ α : Type} [FileStore φ] [FrameSource α] {loader : Loader}
    {space : AddressSpace} {fd size : Nat} {rest : List LoadStep} {r : Except Error Image}
    {s t : φ × Ram × α} (h : BodyTrace loader fd (.file (.sizeAt fd (.ok size)) :: rest) r)
    (hsteps : Performs (Runs loader space) (.file (.sizeAt fd (.ok size)) :: rest) s t) :
    loader.SumsFit size := by
  cases h with
  | pages h =>
    obtain _ | ⟨-, _ | ⟨hsums, -⟩⟩ := hsteps
    by_contra hn
    have hr := hsums.checkSums
    rw [if_neg hn] at hr
    cases hr

/-- A load deals with an open file according to the protocol. -/
theorem BodyTrace.protocol {loader : Loader} {fd : Nat} {body : List LoadStep}
    {r : Except Error Image} (h : BodyTrace loader fd body r) (closed : Except Error Unit) :
    ∃ told rest, body = .file (.sizeAt fd told) :: rest ∧
      LoadProtocol loader fd told rest closed
        (do let image ← r; let _ ← closed; pure image) := by
  obtain ⟨told, rest, rfl, hunsized, hreads, hcount, hmapped⟩ := h.head
  have hfirst := h.findSome?
  refine ⟨told, rest, rfl, hunsized, hreads, hcount, hmapped, ?_, ?_, ?_⟩ <;> rw [hfirst]
  · cases r with
    | ok image => nofun
    | error e =>
      rintro _ ⟨⟩
      rfl
  · cases r with
    | ok image =>
      rintro - e rfl
      rfl
    | error e => nofun
  · cases r with
    | error e => exact ⟨fun ⟨_, h⟩ => (nomatch h), fun h => (nomatch h.1)⟩
    | ok image =>
      cases closed with
      | error e => exact ⟨fun ⟨_, h⟩ => (nomatch h), fun h => (nomatch h.2)⟩
      | ok u => exact ⟨fun _ => ⟨rfl, rfl⟩, fun _ => ⟨image, rfl⟩⟩

/-! ## The open files of a RAM disk -/

namespace DescriptorTable

variable {κ : Type} {table : DescriptorTable κ} {fd fd' : Nat}

/-- Reading moves the one offset on. -/
theorem get?_moveOn_of_ne (h : fd' ≠ fd) (n : Nat) :
    (table.moveOn fd n).get? fd' = table.get? fd' := by
  simp [get?, moveOn, h.symm]

theorem get?_set_none (h : (table.get? fd).isSome) (fd' : Nat) :
    get? ⟨table.slots.set fd none⟩ fd' = if fd' = fd then none else table.get? fd' := by
  have hlt : fd < table.slots.length := by
    by_contra hle
    rw [get?, List.getElem?_eq_none (Nat.not_lt.1 hle)] at h
    cases h
  rw [get?, List.getElem?_set]
  by_cases hfd : fd' = fd
  · subst hfd
    rw [if_pos rfl, if_pos hlt, if_pos rfl]
    rfl
  · rw [if_neg (Ne.symm hfd), if_neg hfd, get?]

/-- A file that is read stays open, and so do the others, where they are. -/
theorem get?_read (contents : κ → Array UInt8) (fd len fd' : Nat) :
    (fd' ≠ fd → ((read contents fd len).run table).state.get? fd' = table.get? fd') ∧
      ((table.get? fd').isSome → (((read contents fd len).run table).state.get? fd').isSome) := by
  cases hf : table.get? fd with
  | none =>
    rw [run_read_of_none _ hf]
    exact ⟨fun _ => rfl, id⟩
  | some f =>
    rw [run_read _ hf]
    refine ⟨fun hne => get?_moveOn_of_ne hne _, ?_⟩
    by_cases hfd : fd' = fd
    · subst hfd
      intro _
      exact Option.isSome_of_eq_some (get?_moveOn hf _)
    · intro hsome
      exact (congrArg Option.isSome (get?_moveOn_of_ne hfd _)).trans hsome

end DescriptorTable

namespace Ramdisk

variable {disk disk' : Ramdisk} {name : String} {fd fd' len : Nat}

/-- A file that is opened takes a descriptor that was free, and no other. -/
theorem get?_of_openName
    (h : (FileStore.openName name : Op Ramdisk Nat).Answers (.ok fd) disk disk') (fd' : Nat) :
    disk.opened.get? fd = none ∧
      disk'.opened.get? fd' = if fd' = fd then some ⟨name, 0⟩ else disk.opened.get? fd' := by
  obtain ⟨es, hrun⟩ := h
  change Op.run (.ask (·.contents? name) >>= _) disk = _ at hrun
  rw [run_bind, run_ask, Outcome.andThen_ok, Outcome.after_nil] at hrun
  cases hdata : disk.contents? name with
  | none =>
    rw [hdata] at hrun
    cases hrun
  | some data =>
    rw [hdata] at hrun
    cases hrun
    exact ⟨(DescriptorTable.place_fst name disk.opened.slots).1,
      DescriptorTable.place_snd name disk.opened.slots fd'⟩

theorem eq_of_openName_error {e : Error}
    (h : (FileStore.openName name : Op Ramdisk Nat).Answers (.error e) disk disk') :
    disk' = disk := by
  obtain ⟨es, hrun⟩ := h
  change Op.run (.ask (·.contents? name) >>= _) disk = _ at hrun
  rw [run_bind, run_ask, Outcome.andThen_ok, Outcome.after_nil] at hrun
  cases hdata : disk.contents? name with
  | none =>
    rw [hdata] at hrun
    cases hrun
    rfl
  | some data =>
    rw [hdata] at hrun
    cases hrun

theorem eq_of_sizeAt {r : Except Error Nat}
    (h : (FileStore.sizeAt fd : Op Ramdisk Nat).Answers r disk disk') : disk' = disk := by
  rw [← h.state_eq]
  rfl

theorem get?_of_readAt {r : Except Error (List UInt8)}
    (h : (FileStore.readAt fd len : Op Ramdisk (List UInt8)).Answers r disk disk') (fd' : Nat) :
    (fd' ≠ fd → disk'.opened.get? fd' = disk.opened.get? fd') ∧
      ((disk.opened.get? fd').isSome → (disk'.opened.get? fd').isSome) := by
  rw [← h.state_eq]
  exact DescriptorTable.get?_read disk.contents fd len fd'

/-- A file that is closed gives its descriptor back, and no other. -/
theorem get?_of_closeAt {r : Except Error Unit}
    (h : (FileStore.closeAt fd : Op Ramdisk Unit).Answers r disk disk')
    (hopen : (disk.opened.get? fd).isSome) (fd' : Nat) :
    disk'.opened.get? fd' = if fd' = fd then none else disk.opened.get? fd' := by
  obtain ⟨f, hf⟩ := Option.isSome_iff_exists.1 hopen
  rw [← h.state_eq]
  show ((onOpened (DescriptorTable.close fd)).run disk).state.opened.get? fd' = _
  rw [onOpened, run_within, DescriptorTable.run_close hf]
  exact DescriptorTable.get?_set_none hopen fd'

variable {α : Type} [FrameSource α] {loader : Loader} {space : AddressSpace}

/-- All files that were open but for `fd` are open as they were, and so is `fd`. -/
def OpenBeside (disk : Ramdisk) (fd : Nat) (s : Ramdisk × Ram × α) : Prop :=
  (∀ fd', fd' ≠ fd → s.1.opened.get? fd' = disk.opened.get? fd') ∧ (s.1.opened.get? fd).isSome

/-- An open file stays open while it is loaded. -/
theorem openBeside_of_performs {body : List LoadStep} {r : Except Error Image}
    (hbody : BodyTrace loader fd body r) {s t : Ramdisk × Ram × α}
    (h : Performs (Runs loader space) body s t) (hs : OpenBeside disk fd s) :
    OpenBeside disk fd t := by
  obtain ⟨told, rest, rfl, -, hreads, -⟩ := hbody.head
  refine h.invariant ?_ hs
  intro step hstep s t hrun ⟨hothers, hopen⟩
  cases hc : step.call? with
  | none =>
    rw [OpenBeside, hrun.files hc]
    exact ⟨hothers, hopen⟩
  | some call =>
    obtain rfl := call?_eq_some_iff.1 hc
    rcases List.mem_cons.1 hstep with hsize | hrest
    · cases hsize
      rw [OpenBeside, eq_of_sizeAt hrun.1]
      exact ⟨hothers, hopen⟩
    · obtain ⟨a, rfl⟩ := hreads call (List.mem_filterMap.2 ⟨_, hrest, hc⟩)
      refine ⟨fun fd' hne => ?_, (get?_of_readAt hrun.1 fd).2 hopen⟩
      rw [(get?_of_readAt hrun.1 fd').1 hne, hothers fd' hne]

/-- A file that was just opened has the size of its contents. -/
theorem size_of_openName {disk'' : Ramdisk} {size : Nat}
    (hopen : (FileStore.openName name : Op Ramdisk Nat).Answers (.ok fd) disk disk')
    (hsize : (FileStore.sizeAt fd : Op Ramdisk Nat).Answers (.ok size) disk' disk'') :
    ∃ data, disk.contents? name = some data ∧ size = data.size := by
  obtain ⟨data, hdata⟩ := contents_of_openName hopen.result_eq
  exact ⟨data, hdata, (hsize.of_meets (sizeAt_meets fd)
    (hopen.of_meets (openName_meets name data) hdata)).1⟩

/-- After a load the same files are open as before, at the same offsets, unless the file was too
large for its sums. -/
theorem get?_opened_load (loader : Loader) (space : AddressSpace) (name : String) (disk : Ramdisk)
    (ram : Ram) (source : α) (fd : Nat) :
    ((loader.load space name).run (disk, ram, source)).state.1.opened.get? fd =
        disk.opened.get? fd ∨
      ∃ data, disk.contents? name = some data ∧ ¬ loader.SumsFit data.size := by
  obtain ⟨steps, hsteps, htrace⟩ := Loader.load_traces loader space name (disk, ram, source)
  generalize ((loader.load space name).run (disk, ram, source)).state = s' at hsteps ⊢
  generalize ((loader.load space name).run (disk, ram, source)).result = r at htrace
  cases htrace with
  | openName e =>
    obtain _ | ⟨⟨hopen, -⟩, _ | _⟩ := hsteps
    rw [eq_of_openName_error hopen]
    exact .inl rfl
  | @opened fd₀ steps r htrace =>
    obtain _ | ⟨⟨hopen, -⟩, hrest⟩ := hsteps
    cases htrace with
    | checkSums size e =>
      obtain _ | ⟨⟨hsize, -⟩, _ | ⟨hsums, -⟩⟩ := hrest
      obtain ⟨data, hdata, rfl⟩ := size_of_openName hopen hsize
      exact .inr ⟨data, hdata, hsums.not_sumsFit.1⟩
    | @closeAt body r closed hbody =>
      obtain ⟨t, hload, _ | ⟨⟨hclose, -⟩, _ | _⟩⟩ := hrest.of_append
      have hbefore := get?_of_openName hopen
      obtain ⟨hothers, hstill⟩ : OpenBeside disk fd₀ t :=
        openBeside_of_performs hbody hload ⟨fun fd' hne => by rw [(hbefore fd').2, if_neg hne],
          by rw [(hbefore fd₀).2, if_pos rfl]; rfl⟩
      left
      rw [get?_of_closeAt hclose hstill fd]
      by_cases hfd : fd = fd₀
      · rw [if_pos hfd, hfd, (hbefore fd₀).1]
      · rw [if_neg hfd, hothers fd hfd]

end Ramdisk

/-! ## The protocol -/

namespace Loader

variable {φ α : Type} [FileStore φ] [FrameSource α]

/-- A load opens the file, and if that fails it returns the error and does nothing else. If the size
that the store tells is too large for the sums, the program ends there, with the file open. Otherwise
the load follows the protocol, and ends by closing the file, whatever came before. The record of the
store lists all calls on it. A RAM disk has the same open files afterwards as before, unless the file
is one for which the program ends. -/
theorem load_protocol (loader : Loader) (space : AddressSpace) (name : String) (ram : Ram)
    (source : α) :
    (∀ files : Recorded φ, ∃ steps,
      Performs (Runs loader space) steps (files, ram, source)
        ((loader.load space name).run (files, ram, source)).state ∧
      ((loader.load space name).run (files, ram, source)).state.1.calls =
        files.calls ++ steps.filterMap LoadStep.call? ∧
      ((∃ e, steps = [.file (.openName name (.error e))] ∧
          ((loader.load space name).run (files, ram, source)).result = .error e ∧
          ((loader.load space name).run (files, ram, source)).state.2 = (ram, source)) ∨
        (∃ fd size, steps = [.file (.openName name (.ok fd)), .file (.sizeAt fd (.ok size)),
            .checkSums size (.error .sumTooLarge)] ∧ ¬ loader.SumsFit size ∧
          ((loader.load space name).run (files, ram, source)).result = .error .sumTooLarge ∧
          ((loader.load space name).run (files, ram, source)).state.2 = (ram, source)) ∨
        ∃ fd told rest closed, steps =
            .file (.openName name (.ok fd)) :: .file (.sizeAt fd told) :: (rest ++
              [.file (.closeAt fd closed)]) ∧
          (∀ size, told = .ok size → loader.SumsFit size) ∧
          LoadProtocol loader fd told rest closed
            ((loader.load space name).run (files, ram, source)).result)) ∧
    ∀ (disk : Ramdisk) (fd : Nat),
      ((loader.load space name).run (disk, ram, source)).state.1.opened.get? fd =
          disk.opened.get? fd ∨
        ∃ data, disk.contents? name = some data ∧ ¬ loader.SumsFit data.size := by
  refine ⟨?_, fun disk => Ramdisk.get?_opened_load loader space name disk ram source⟩
  intro files
  obtain ⟨steps, hsteps, htrace⟩ := load_traces loader space name (files, ram, source)
  refine ⟨steps, hsteps, calls_of_performs hsteps, ?_⟩
  generalize ((loader.load space name).run (files, ram, source)).state = s' at hsteps ⊢
  generalize ((loader.load space name).run (files, ram, source)).result = r at htrace ⊢
  cases htrace with
  | openName e =>
    obtain _ | ⟨⟨-, hmemory⟩, _ | _⟩ := hsteps
    exact .inl ⟨e, rfl, rfl, hmemory⟩
  | @opened fd steps r htrace =>
    obtain _ | ⟨⟨-, hmemory⟩, hrest⟩ := hsteps
    cases htrace with
    | checkSums size e =>
      obtain _ | ⟨⟨-, hmemory'⟩, _ | ⟨hsums, _ | _⟩⟩ := hrest
      obtain ⟨hn, rfl, rfl⟩ := hsums.not_sumsFit
      exact .inr (.inl ⟨fd, size, rfl, hn, rfl, hmemory'.trans hmemory⟩)
    | @closeAt body r closed hbody =>
      obtain ⟨t, hload, -⟩ := hrest.of_append
      obtain ⟨told, rest, rfl, hprotocol⟩ := hbody.protocol closed
      refine .inr (.inr ⟨fd, told, rest, closed, rfl, ?_, hprotocol⟩)
      rintro size rfl
      exact hbody.sumsFit hload

/-- The small disk behind a plan by which every file has nearly 2 ^ 64 bytes. -/
def hugeDisk : Recorded (Faulty Ramdisk) :=
  ⟨⟨⟨[("init", #[1, 2, 3])], .empty⟩, { FaultPlan.none with size? := some 18446744073709543424 },
    0⟩, []⟩

/-- The load ends before the file is closed. -/
theorem load_protocol_hugeDisk : ∃ (ram : Ram) (steps : List LoadStep),
    let o := (standard.load ⟨0⟩ "init").run (hugeDisk, ram, Pool.ofRange ⟨0, 65536⟩)
    Performs (Runs standard ⟨0⟩) steps (hugeDisk, ram, Pool.ofRange ⟨0, 65536⟩) o.state ∧
      steps = [.file (.openName "init" (.ok 0)), .file (.sizeAt 0 (.ok 18446744073709543424)),
        .checkSums 18446744073709543424 (.error .sumTooLarge)] ∧
      o.result = .error .sumTooLarge ∧ (o.state.1.store.store.opened.get? 0).isSome := by
  obtain ⟨zero, -⟩ : ∃ zero, Ram.zeroed 65536 = .ok zero := ⟨_, rfl⟩
  obtain ⟨hload, -⟩ := load_protocol (φ := Faulty Ramdisk) standard ⟨0⟩ "init" zero
    (Pool.ofRange ⟨0, 65536⟩)
  obtain ⟨steps, hsteps, hcalls, hends⟩ := hload hugeDisk
  have hrecord : ((standard.load ⟨0⟩ "init").run
      (hugeDisk, zero, Pool.ofRange ⟨0, 65536⟩)).state.1.calls =
      [.openName "init" (.ok 0), .sizeAt 0 (.ok 18446744073709543424)] := rfl
  rw [hrecord] at hcalls
  refine ⟨zero, steps, hsteps, ?_, rfl, rfl⟩
  rcases hends with ⟨e, rfl, -⟩ | ⟨fd, size, rfl, -⟩ | ⟨fd, told, rest, closed, rfl, -⟩
  · cases hcalls
  · cases hcalls
    rfl
  · -- the call that closes the file would be in the record
    have hclose : FileCall.closeAt fd closed ∈ [FileCall.openName "init" (.ok 0),
        .sizeAt 0 (.ok 18446744073709543424)] := by
      rw [hcalls]
      exact List.mem_filterMap.2 ⟨.file (.closeAt fd closed), by simp, rfl⟩
    simp at hclose

end Loader

end PagedMemory
