import PagedMemory.Files.Served
import PagedMemory.Proofs.Contracts
import PagedMemory.Proofs.LoadProtocol

/-!
# Which descriptors are open

Files are opened, asked for their size, read and closed, in any order and under any numbers, whether
or not these were ever given out. Which descriptors are open is told by the calls and their answers
alone: those that were answered and not closed since.

- `TabledStore`: stores that keep their open files in a table; RAM disks and served directories do;
- `TableStep`: the ways in which a call can end, and what becomes of the table;
- `InUse`: the descriptors that are open, read off the calls;
- `runs_lawful`: after any calls the table agrees with that;
- `descriptors_lawful`: what comes of one more call, on stores of either kind.
-/

namespace PagedMemory

open Op

/-! ## Stores that keep their open files in a table -/

/-- A store that keeps its open files in a table, and what may become of its files meanwhile. -/
class TabledStore (φ : Type) (κ ε : outParam Type) extends FileStore φ where
  /-- The open files. -/
  opened : φ → DescriptorTable κ
  /-- The store with these files open. -/
  reopen : φ → DescriptorTable κ → φ
  /-- What is opened under a name, or why nothing is. -/
  lookup : φ → String → Except Error κ
  /-- The contents of an open file. -/
  contents : φ → κ → Array UInt8
  /-- The store after its files have changed. -/
  change : ε → Op φ Unit
  opened_reopen : ∀ s table, opened (reopen s table) = table
  reopen_opened : ∀ s, reopen s (opened s) = s
  run_openName : ∀ name s, (openName name).run s = match lookup s name with
    | .ok file => ((DescriptorTable.insert file).within (fun s => (opened s, s))
        fun table s => reopen s table).run s
    | .error e => ⟨.error e, s, []⟩
  run_sizeAt : ∀ fd s, (sizeAt fd).run s =
    ⟨((opened s).find fd).map fun f => (contents s f.file).size, s, []⟩
  run_readAt : ∀ fd len s, (readAt fd len).run s =
    ((DescriptorTable.read (contents s) fd len).within (fun s => (opened s, s))
      fun table s => reopen s table).run s
  run_closeAt : ∀ fd s, (closeAt fd).run s =
    ((DescriptorTable.close fd).within (fun s => (opened s, s))
      fun table s => reopen s table).run s
  run_change : ∀ c s, ∃ s', (change c).run s = ⟨.ok (), s', []⟩ ∧ opened s' = opened s

/-- A RAM disk opens names, whose contents may be replaced at any time. -/
instance : TabledStore Ramdisk String (String × Array UInt8) where
  opened := Ramdisk.opened
  reopen disk opened := { disk with opened }
  lookup disk name := match disk.contents? name with
    | some _ => .ok name
    | none => .error (.fileNotFound name)
  contents := Ramdisk.contents
  change file := Ramdisk.add file.1 file.2
  opened_reopen _ _ := rfl
  reopen_opened _ := rfl
  run_openName name disk := by
    show Op.run (.ask (·.contents? name) >>= _) disk = _
    rw [run_bind, run_ask, Outcome.andThen_ok, Outcome.after_nil]
    cases disk.contents? name <;> rfl
  run_sizeAt _ _ := rfl
  run_readAt _ _ _ := rfl
  run_closeAt _ _ := rfl
  run_change _ _ := ⟨_, rfl, rfl⟩

/-- A served directory opens contents, and its names may lead elsewhere at any time. -/
instance : TabledStore Served (Array UInt8) (String → Except HostFault (Array UInt8)) where
  opened := Served.opened
  reopen served opened := { served with opened }
  lookup served name := match served.fetch name with
    | .ok data => .ok data
    | .error .missing => .error (.fileNotFound name)
    | .error fault => .error (.host fault)
  contents _ data := data
  change := Served.refetch
  opened_reopen _ _ := rfl
  reopen_opened _ := rfl
  run_openName name served := by
    show Op.run (.ask (·.fetch name) >>= _) served = _
    rw [run_bind, run_ask, Outcome.andThen_ok, Outcome.after_nil]
    cases served.fetch name with
    | ok data => rfl
    | error fault => cases fault <;> rfl
  run_sizeAt _ _ := rfl
  run_readAt _ _ _ := rfl
  run_closeAt _ _ := rfl
  run_change _ _ := ⟨_, rfl, rfl⟩

/-! ## How many files are open -/

namespace DescriptorTable

variable {κ : Type} {table : DescriptorTable κ} {fd : Nat} {f : OpenFile κ}

/-- A file that is opened is one more. -/
theorem count_place (file : κ) (table : DescriptorTable κ) :
    count ⟨(place file table.slots).2⟩ = table.count + 1 := by
  obtain ⟨slots⟩ := table
  rw [count, count]
  induction slots with
  | nil => rfl
  | cons slot rest ih =>
    cases slot with
    | none => rw [place, List.countP_cons, List.countP_cons]; rfl
    | some f => rw [place, List.countP_cons, List.countP_cons, ih]; rfl

/-- Reading closes nothing. -/
theorem count_moveOn (table : DescriptorTable κ) (fd n : Nat) :
    (table.moveOn fd n).count = table.count := by
  obtain ⟨slots⟩ := table
  rw [count, count, moveOn]
  induction slots generalizing fd with
  | nil => cases fd <;> rfl
  | cons slot rest ih =>
    cases fd with
    | zero =>
      rw [List.modify_zero_cons, List.countP_cons, List.countP_cons]
      cases slot <;> rfl
    | succ fd => rw [List.modify_succ_cons, List.countP_cons, List.countP_cons, ih]

/-- A file that is closed is one fewer. -/
theorem count_set_none (h : table.get? fd = some f) :
    count ⟨table.slots.set fd none⟩ + 1 = table.count := by
  obtain ⟨slots⟩ := table
  rw [count, count]
  induction slots generalizing fd with
  | nil => cases h
  | cons slot rest ih =>
    cases fd with
    | zero =>
      obtain rfl : slot = some f := h
      rw [List.set_cons_zero, List.countP_cons, List.countP_cons]
      rfl
    | succ fd =>
      rw [List.set_cons_succ, List.countP_cons, List.countP_cons, ← ih h, Nat.add_right_comm]

end DescriptorTable

/-! ## Calls -/

/-- A call on a store. A read brings the buffer that it fills. -/
inductive StoreCall (ε : Type)
  | openName (name : String)
  | sizeAt (fd : Nat)
  | readAt (fd : Nat) (buffer : List UInt8)
  | closeAt (fd : Nat)
  /-- Not a call of whoever has files open: the files change. -/
  | change (c : ε)

/-- Calls with their answers, in order. -/
abbrev StoreLog (ε : Type) := List (StoreCall ε × Except Error (Option Nat))

namespace StoreCall

variable {φ κ ε : Type} {call : StoreCall ε} {fd fd' : Nat}

/-- The descriptor that the call uses. -/
def fd? : StoreCall ε → Option Nat
  | .sizeAt fd | .readAt fd _ | .closeAt fd => some fd
  | .openName _ | .change _ => none

/-- The buffer as the call finds it. -/
def buffer : StoreCall ε → List UInt8 → List UInt8
  | .readAt _ buffer, _ => buffer
  | _, buffer => buffer

/-- Makes the call. -/
def perform [TabledStore φ κ ε] : StoreCall ε → Op (φ × List UInt8) (Option Nat)
  | .openName name => some <$> .fst (FileStore.openName name)
  | .sizeAt fd => some <$> .fst (FileStore.sizeAt fd)
  | .readAt fd buffer => do
    .update fun (files, _) => (files, buffer)
    some <$> readInto fd
  | .closeAt fd => (fun _ => none) <$> .fst (FileStore.closeAt fd)
  | .change c => (fun _ => none) <$> .fst (TabledStore.change c)

/-! ## What becomes of the table -/

/-- A call with its answer, and the table before and after it. -/
inductive TableStep : StoreCall ε → Except Error (Option Nat) → DescriptorTable κ →
    DescriptorTable κ → Prop
  /-- A file is opened under the smallest free number. -/
  | opened (name : String) (file : κ) (table : DescriptorTable κ) :
      TableStep (.openName name) (.ok (some (DescriptorTable.place file table.slots).1)) table
        ⟨(DescriptorTable.place file table.slots).2⟩
  | unopened (name : String) (e : Error) (table : DescriptorTable κ) :
      TableStep (.openName name) (.error e) table table
  | size {fd : Nat} {table : DescriptorTable κ} {f : OpenFile κ} (h : table.get? fd = some f)
      (n : Nat) : TableStep (.sizeAt fd) (.ok (some n)) table table
  | read {fd : Nat} {table : DescriptorTable κ} {f : OpenFile κ} (h : table.get? fd = some f)
      (buffer : List UInt8) (n : Nat) :
      TableStep (.readAt fd buffer) (.ok (some n)) table (table.moveOn fd n)
  | closed {fd : Nat} {table : DescriptorTable κ} {f : OpenFile κ} (h : table.get? fd = some f) :
      TableStep (.closeAt fd) (.ok none) table ⟨table.slots.set fd none⟩
  /-- There is no file under the number. -/
  | refused {call : StoreCall ε} {fd : Nat} {table : DescriptorTable κ} (hfd : call.fd? = some fd)
      (h : table.get? fd = none) : TableStep call (.error (.badDescriptor fd)) table table
  | changed (c : ε) (table : DescriptorTable κ) : TableStep (.change c) (.ok none) table table

/-! ## What a call does -/

section

variable [TabledStore φ κ ε] {s : φ × List UInt8}

/-- A call under a number that is free is refused, and nothing changes. -/
theorem run_perform_of_none (hfd : call.fd? = some fd)
    (h : (TabledStore.opened s.1).get? fd = none) :
    call.perform.run s = ⟨.error (.badDescriptor fd), (s.1, call.buffer s.2), []⟩ := by
  obtain ⟨files, buffer⟩ := s
  cases call with
  | openName _ => cases hfd
  | change _ => cases hfd
  | sizeAt fd =>
    cases hfd
    refine run_map_of_error ?_
    rw [run_fst, TabledStore.run_sizeAt, DescriptorTable.find_of_none h]
    rfl
  | readAt fd new =>
    cases hfd
    have hread : (FileStore.readAt fd new.length : Op φ (List UInt8)).run files =
        ⟨.error (.badDescriptor fd), files, []⟩ := by
      rw [TabledStore.run_readAt, run_within, DescriptorTable.run_read_of_none _ h,
        TabledStore.reopen_opened]
    have hinto : (readInto fd).run (files, new) =
        ⟨.error (.badDescriptor fd), (files, new), []⟩ := by
      rw [readInto, run_bind, run_ask, Outcome.andThen_ok, Outcome.after_nil, run_bind, run_fst,
        hread, Outcome.andThen_error]
    rw [perform, run_bind, run_update, Outcome.andThen_ok, Outcome.after_nil]
    exact run_map_of_error hinto
  | closeAt fd =>
    cases hfd
    refine run_map_of_error ?_
    rw [run_fst, TabledStore.run_closeAt, run_within, DescriptorTable.run_close_of_none h,
      TabledStore.reopen_opened]
    rfl

/-- What a name leads to decides whether it is opened. -/
theorem run_openName_of_ok {name : String} {file : κ}
    (h : TabledStore.lookup s.1 name = .ok file) :
    (perform (.openName name)).run s =
      ⟨.ok (some (DescriptorTable.place file (TabledStore.opened s.1).slots).1),
        (TabledStore.reopen s.1 ⟨(DescriptorTable.place file (TabledStore.opened s.1).slots).2⟩,
          s.2), []⟩ := by
  refine run_map_of_ok ?_
  rw [run_fst, TabledStore.run_openName, h]
  rfl

/-- A name that is not opened leaves everything as it is. -/
theorem run_openName_of_error {name : String} {e : Error}
    (h : TabledStore.lookup s.1 name = .error e) :
    (perform (.openName name)).run s = ⟨.error e, s, []⟩ := by
  refine run_map_of_error ?_
  rw [run_fst, TabledStore.run_openName, h]

theorem run_sizeAt_of_get? {f : OpenFile κ} (h : (TabledStore.opened s.1).get? fd = some f) :
    (perform (.sizeAt fd)).run s =
      ⟨.ok (some (TabledStore.contents s.1 f.file).size), s, []⟩ := by
  refine run_map_of_ok ?_
  rw [run_fst, TabledStore.run_sizeAt, DescriptorTable.find_of_get? h]
  rfl

/-- A read fills its buffer, with zeros after the end of the file. -/
theorem run_readAt_of_get? {f : OpenFile κ} (h : (TabledStore.opened s.1).get? fd = some f)
    (buffer : List UInt8) :
    let bytes := ((TabledStore.contents s.1 f.file).extract f.offset
      (f.offset + buffer.length)).toList
    (perform (.readAt fd buffer)).run s = ⟨.ok (some bytes.length),
      (TabledStore.reopen s.1 ((TabledStore.opened s.1).moveOn fd bytes.length),
        padded buffer.length bytes), []⟩ := by
  intro bytes
  have hread : (FileStore.readAt fd buffer.length : Op φ (List UInt8)).run s.1 = ⟨.ok bytes,
      TabledStore.reopen s.1 ((TabledStore.opened s.1).moveOn fd bytes.length), []⟩ := by
    rw [TabledStore.run_readAt, run_within, DescriptorTable.run_read _ h]
  rw [perform, run_bind, run_update, Outcome.andThen_ok, Outcome.after_nil]
  refine run_map_of_ok ?_
  rw [readInto, run_bind, run_ask, Outcome.andThen_ok, Outcome.after_nil, run_bind, run_fst, hread]
  rfl

theorem run_closeAt_of_get? {f : OpenFile κ} (h : (TabledStore.opened s.1).get? fd = some f) :
    (perform (.closeAt fd)).run s = ⟨.ok none,
      (TabledStore.reopen s.1 ⟨(TabledStore.opened s.1).slots.set fd none⟩, s.2), []⟩ := by
  refine run_map_of_ok (a := ()) ?_
  rw [run_fst, TabledStore.run_closeAt, run_within, DescriptorTable.run_close h]

/-- Every call ends in one of these ways. -/
theorem perform_step (call : StoreCall ε) (s : φ × List UInt8) :
    TableStep call (call.perform.run s).result (TabledStore.opened s.1)
      (TabledStore.opened (call.perform.run s).state.1) := by
  have hrefused : ∀ fd, call.fd? = some fd → (TabledStore.opened s.1).get? fd = none →
      TableStep call (call.perform.run s).result (TabledStore.opened s.1)
        (TabledStore.opened (call.perform.run s).state.1) := by
    intro fd hfd hf
    rw [run_perform_of_none hfd hf]
    exact .refused hfd hf
  cases call with
  | openName name =>
    cases hname : TabledStore.lookup s.1 name with
    | ok file =>
      rw [run_openName_of_ok hname, TabledStore.opened_reopen]
      exact .opened name file _
    | error e =>
      rw [run_openName_of_error hname]
      exact .unopened name e _
  | sizeAt fd =>
    cases hf : (TabledStore.opened s.1).get? fd with
    | none => exact hrefused fd rfl hf
    | some f =>
      rw [run_sizeAt_of_get? hf]
      exact .size hf _
  | readAt fd buffer =>
    cases hf : (TabledStore.opened s.1).get? fd with
    | none => exact hrefused fd rfl hf
    | some f =>
      rw [run_readAt_of_get? hf, TabledStore.opened_reopen]
      exact .read hf buffer _
  | closeAt fd =>
    cases hf : (TabledStore.opened s.1).get? fd with
    | none => exact hrefused fd rfl hf
    | some f =>
      rw [run_closeAt_of_get? hf, TabledStore.opened_reopen]
      exact .closed hf
  | change c =>
    obtain ⟨files, hrun, hopened⟩ := TabledStore.run_change c s.1
    have hchange : (perform (.change c)).run s = ⟨.ok none, (files, s.2), []⟩ := by
      refine run_map_of_ok (a := ()) ?_
      rw [run_fst, hrun]
    rw [hchange, hopened]
    exact .changed c _

end

/-! ## Which descriptors are in use -/

/-- A file was opened. -/
def opens : StoreCall ε × Except Error (Option Nat) → Bool
  | (.openName _, .ok _) => true
  | _ => false

/-- A file was closed. -/
def closes : StoreCall ε × Except Error (Option Nat) → Bool
  | (.closeAt _, .ok _) => true
  | _ => false

/-- An open answered `fd`, and no close of it has succeeded since. -/
def InUse (log : StoreLog ε) (fd : Nat) : Prop :=
  ∃ before name after, log = before ++ (.openName name, .ok (some fd)) :: after ∧
    ∀ a, (.closeAt fd, .ok a) ∉ after

variable {log : StoreLog ε} {r : Except Error (Option Nat)} {table table' : DescriptorTable κ}

/-- One more call puts a descriptor in use, or gives it back, or does neither. -/
theorem inUse_concat : InUse (log ++ [(call, r)]) fd ↔
    (∃ name, call = .openName name ∧ r = .ok (some fd)) ∨
      InUse log fd ∧ ∀ a, (call, r) ≠ (.closeAt fd, .ok a) := by
  constructor
  · rintro ⟨before, name, after, hlog, hafter⟩
    rcases List.eq_nil_or_concat after with rfl | ⟨after, last, rfl⟩
    · obtain ⟨-, hlast⟩ := List.append_inj' hlog rfl
      obtain ⟨rfl, rfl⟩ := Prod.mk.inj (List.cons.inj hlast).1
      exact .inl ⟨name, rfl, rfl⟩
    · rw [List.concat_eq_append, ← List.cons_append, ← List.append_assoc] at hlog
      obtain ⟨rfl, hlast⟩ := List.append_inj' hlog rfl
      obtain rfl := (List.cons.inj hlast).1
      refine .inr ⟨⟨before, name, after, rfl, fun a ha => hafter a ?_⟩, ?_⟩
      · rw [List.concat_eq_append]
        exact List.mem_append_left _ ha
      · rintro a heq
        refine hafter a ?_
        rw [List.concat_eq_append, heq]
        exact List.mem_append_right _ List.mem_cons_self
  · rintro (⟨name, rfl, rfl⟩ | ⟨⟨before, name, after, rfl, hafter⟩, hlast⟩)
    · exact ⟨log, name, [], rfl, fun _ => List.not_mem_nil⟩
    · refine ⟨before, name, after ++ [(call, r)], by rw [List.append_assoc, List.cons_append], ?_⟩
      intro a ha
      rcases List.mem_append.1 ha with ha | ha
      · exact hafter a ha
      · exact hlast a (List.mem_singleton.1 ha).symm

/-- A call that neither opens nor closes a file puts nothing in use and gives nothing back. -/
theorem inUse_concat_of_neither (hopen : opens (call, r) = false)
    (hclose : closes (call, r) = false) : InUse (log ++ [(call, r)]) fd ↔ InUse log fd := by
  rw [inUse_concat]
  constructor
  · rintro (⟨name, rfl, rfl⟩ | ⟨h, -⟩)
    · cases hopen
    · exact h
  · intro h
    refine .inr ⟨h, fun a heq => ?_⟩
    rw [heq] at hclose
    cases hclose

/-! ## What the table keeps -/

/-- If the table has a file under just the descriptors that are in use, it does so after one more
call. -/
theorem TableStep.inUse (h : TableStep call r table table')
    (htable : ∀ fd, (table.get? fd).isSome ↔ InUse log fd) (fd : Nat) :
    (table'.get? fd).isSome ↔ InUse (log ++ [(call, r)]) fd := by
  cases h with
  | opened name file =>
    rw [inUse_concat, DescriptorTable.get?, DescriptorTable.place_snd]
    by_cases hfd : fd = (DescriptorTable.place file table.slots).1
    · rw [if_pos hfd, hfd]
      exact ⟨fun _ => .inl ⟨name, rfl, rfl⟩, fun _ => rfl⟩
    · rw [if_neg hfd, ← DescriptorTable.get?, htable]
      constructor
      · intro h
        refine .inr ⟨h, fun a heq => ?_⟩
        cases heq
      · rintro (⟨_, -, heq⟩ | ⟨h, -⟩)
        · cases heq
          exact absurd rfl hfd
        · exact h
  | unopened => rw [htable, inUse_concat_of_neither rfl rfl]
  | size => rw [htable, inUse_concat_of_neither rfl rfl]
  | @read fd' _ f hf buffer n =>
    rw [inUse_concat_of_neither rfl rfl, ← htable]
    by_cases hfd : fd = fd'
    · subst hfd
      rw [DescriptorTable.get?_moveOn hf, hf]
      rfl
    · rw [DescriptorTable.get?_moveOn_of_ne hfd]
  | @closed fd' _ f hf =>
    rw [inUse_concat, ← htable, DescriptorTable.get?_set_none (Option.isSome_of_eq_some hf)]
    by_cases hfd : fd = fd'
    · subst hfd
      rw [if_pos rfl]
      constructor
      · intro h
        cases h
      · rintro (⟨_, heq, -⟩ | ⟨-, h⟩)
        · cases heq
        · exact absurd rfl (h none)
    · rw [if_neg hfd]
      constructor
      · intro h
        refine .inr ⟨h, fun a heq => ?_⟩
        cases heq
        exact hfd rfl
      · rintro (⟨_, heq, -⟩ | ⟨h, -⟩)
        · cases heq
        · exact h
  | refused =>
    rw [htable, inUse_concat_of_neither] <;> cases call <;> rfl
  | changed => rw [htable, inUse_concat_of_neither rfl rfl]

/-- One more call counts if it is of the kind that is counted. -/
theorem countP_concat (p : StoreCall ε × Except Error (Option Nat) → Bool) (log : StoreLog ε)
    (call : StoreCall ε × Except Error (Option Nat)) :
    (log ++ [call]).countP p = log.countP p + (p call).toNat := by
  rw [List.countP_append, List.countP_singleton]
  cases p call <;> rfl

/-- A call opens one file, or closes one, or neither. -/
theorem TableStep.count (h : TableStep call r table table') :
    table'.count + (closes (call, r)).toNat = table.count + (opens (call, r)).toNat := by
  cases h with
  | opened name file => exact DescriptorTable.count_place file table
  | unopened => rfl
  | size => rfl
  | read => exact DescriptorTable.count_moveOn ..
  | closed hf => exact DescriptorTable.count_set_none hf
  | refused => cases call <;> rfl
  | changed => rfl

/-- A call leaves the files alone that it does not use and does not open. -/
theorem TableStep.get?_of_ne (h : TableStep call r table table') (hfd : call.fd? ≠ some fd)
    (hopen : ∀ name, call = .openName name → r ≠ .ok (some fd)) :
    table'.get? fd = table.get? fd := by
  cases h with
  | opened name file =>
    rw [DescriptorTable.get?, DescriptorTable.place_snd, if_neg, DescriptorTable.get?]
    rintro rfl
    exact hopen name rfl rfl
  | unopened => rfl
  | size => rfl
  | read =>
    refine DescriptorTable.get?_moveOn_of_ne ?_ _
    rintro rfl
    exact hfd rfl
  | closed hf =>
    rw [DescriptorTable.get?_set_none (Option.isSome_of_eq_some hf), if_neg]
    rintro rfl
    exact hfd rfl
  | refused => rfl
  | changed => rfl

/-- A call that uses a descriptor succeeds just when a file is open under it. -/
theorem TableStep.succeeds_iff (h : TableStep call r table table') (hfd : call.fd? = some fd) :
    (∃ a, r = .ok a) ↔ (table.get? fd).isSome := by
  cases h with
  | opened => cases hfd
  | unopened => cases hfd
  | changed => cases hfd
  | size hf => cases hfd; exact ⟨fun _ => Option.isSome_of_eq_some hf, fun _ => ⟨_, rfl⟩⟩
  | read hf => cases hfd; exact ⟨fun _ => Option.isSome_of_eq_some hf, fun _ => ⟨_, rfl⟩⟩
  | closed hf => cases hfd; exact ⟨fun _ => Option.isSome_of_eq_some hf, fun _ => ⟨_, rfl⟩⟩
  | refused hfd' hf =>
    obtain rfl := Option.some.inj (hfd'.symm.trans hfd)
    rw [hf]
    exact ⟨nofun, nofun⟩

/-! ## One more call -/

section

variable [TabledStore φ κ ε] {s : φ × List UInt8}

/-- What comes of a call after others with these answers. -/
structure Lawful (log : StoreLog ε) (s : φ × List UInt8) (call : StoreCall ε)
    (o : Outcome (φ × List UInt8) (Option Nat)) : Prop where
  /-- A file that is opened gets the smallest descriptor that is not in use, and will be read from
  its beginning on. -/
  opened : ∀ name a, call = .openName name → o.result = .ok a →
    ∃ fd file, a = some fd ∧ ¬ InUse log fd ∧ (∀ j < fd, InUse log j) ∧
      TabledStore.lookup s.1 name = .ok file ∧
      (TabledStore.opened o.state.1).get? fd = some ⟨file, 0⟩
  /-- A file that is not opened changes nothing. -/
  unopened : ∀ name e, call = .openName name → o.result = .error e → o.state = s
  /-- All other calls succeed just when they use a descriptor that is in use. -/
  succeeds : ∀ fd, call.fd? = some fd → ((∃ a, o.result = .ok a) ↔ InUse log fd)
  /-- Else they are refused, and leave the open files and the buffer as they are. -/
  refused : ∀ fd, call.fd? = some fd → ¬ InUse log fd →
    o.result = .error (.badDescriptor fd) ∧ o.state = (s.1, call.buffer s.2)
  /-- No call changes the file or the offset of a descriptor that it does not use or open. -/
  others : ∀ fd, call.fd? ≠ some fd → (∀ name, call = .openName name → o.result ≠ .ok (some fd)) →
    (TabledStore.opened o.state.1).get? fd = (TabledStore.opened s.1).get? fd

theorem perform_lawful (htable : ∀ fd, ((TabledStore.opened s.1).get? fd).isSome ↔ InUse log fd)
    (call : StoreCall ε) : Lawful log s call (call.perform.run s) := by
  have hstep := perform_step call s
  constructor
  case opened =>
    rintro name a rfl ha
    cases hname : TabledStore.lookup s.1 name with
    | error e =>
      rw [run_openName_of_error hname] at ha
      cases ha
    | ok file =>
      rw [run_openName_of_ok hname] at ha ⊢
      cases ha
      obtain ⟨hfree, htaken⟩ := DescriptorTable.place_fst file (TabledStore.opened s.1).slots
      refine ⟨_, file, rfl, ?_, fun j hj => (htable j).1 (htaken j hj), rfl, ?_⟩
      · rw [← htable, DescriptorTable.get?, hfree]
        exact Bool.false_ne_true
      · rw [TabledStore.opened_reopen]
        exact (DescriptorTable.place_snd file _ _).trans (if_pos rfl)
  case unopened =>
    rintro name e rfl he
    cases hname : TabledStore.lookup s.1 name with
    | error e => rw [run_openName_of_error hname]
    | ok file =>
      rw [run_openName_of_ok hname] at he
      cases he
  case succeeds =>
    intro fd hfd
    rw [hstep.succeeds_iff hfd, htable]
  case refused =>
    intro fd hfd hunused
    rw [← htable, Option.not_isSome_iff_eq_none] at hunused
    rw [run_perform_of_none hfd hunused]
    exact ⟨rfl, rfl⟩
  case others =>
    intro fd hfd hopen
    exact hstep.get?_of_ne hfd hopen

/-! ## Any calls -/

/-- The table of a store has a file under just the descriptors that are in use, as many as were
opened without those that were closed. -/
def Agrees (s : φ × List UInt8) (log : StoreLog ε) : Prop :=
  (∀ fd, ((TabledStore.opened s.1).get? fd).isSome ↔ InUse log fd) ∧
    (TabledStore.opened s.1).count + log.countP closes = log.countP opens

theorem agrees_start {start : φ} (hstart : TabledStore.opened start = .empty)
    (buffer : List UInt8) : Agrees (start, buffer) [] := by
  constructor
  · intro fd
    rw [hstart]
    refine ⟨nofun, ?_⟩
    rintro ⟨before, name, after, hnil, -⟩
    exact absurd hnil (by simp)
  · rw [hstart]
    rfl

theorem Agrees.perform (h : Agrees s log) (call : StoreCall ε) :
    Agrees (call.perform.run s).state (log ++ [(call, (call.perform.run s).result)]) := by
  have hstep := perform_step call s
  refine ⟨hstep.inUse h.1, ?_⟩
  have hone := hstep.count
  have hcount := h.2
  rw [countP_concat, countP_concat]
  omega

/-- After any calls on the store the table agrees with them, and one more call keeps the law. -/
def KeepsLaw (start : φ) : Prop :=
  ∀ (buffer : List UInt8) (calls : List (StoreCall ε)),
    let (s, log) := Op.runAll perform (start, buffer) calls
    Agrees s log ∧ ∀ call : StoreCall ε, Lawful log s call (call.perform.run s)

/-- A store keeps the law from when no file is open. -/
theorem keepsLaw {start : φ} (hstart : TabledStore.opened start = .empty) : KeepsLaw start := by
  intro buffer calls
  have hagrees := Op.runAll_invariant (f := perform) (I := Agrees) (agrees_start hstart buffer)
    (fun s log call h => h.perform call) calls
  exact ⟨hagrees, perform_lawful hagrees.1⟩

end

end StoreCall

/-- RAM disks and served directories keep the law of descriptors. -/
theorem descriptors_lawful (files : List (String × Array UInt8))
    (fetch : String → Except HostFault (Array UInt8)) :
    StoreCall.KeepsLaw (⟨files, .empty⟩ : Ramdisk) ∧ StoreCall.KeepsLaw (Served.ofFetch fetch) :=
  ⟨StoreCall.keepsLaw rfl, StoreCall.keepsLaw rfl⟩

end PagedMemory
