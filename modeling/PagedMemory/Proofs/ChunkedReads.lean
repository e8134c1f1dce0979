import Mathlib.Algebra.Ring.Nat
import PagedMemory.Proofs.OpenDescriptors

/-!
# Files read in chunks

An open file is read on and on, into buffers of any lengths. Between the reads files are opened,
read and closed under other descriptors, and files change. Each read delivers the next bytes of the
file that was opened, and fills up its buffer with zeros: put together, what was delivered is the
beginning of the file, and in the end the whole of it.

- `ContentStore`: stores that say which changes leave the contents of an open file alone;
- `ReadMade.chunk`: what a read has to answer;
- `Reassembles`: what the reads of a file have delivered between them;
- `reads_reassemble`: so it is for any calls on a RAM disk that does not replace the file, and on a
  served directory, whatever becomes of the file there.
-/

namespace PagedMemory

open Op

/-! ## Contents that stay -/

/-- A store in which opening and closing files changes no contents, and that says which changes of
its files leave those of an open file alone. -/
class ContentStore (φ : Type) (κ ε : outParam Type) extends TabledStore φ κ ε where
  /-- The change does not concern what is open as `file`. -/
  Spares : ε → κ → Prop
  contents_reopen : ∀ s table, contents (reopen s table) = contents s
  contents_change : ∀ c s file, Spares c file →
    contents ((change c).run s).state file = contents s file

theorem Ramdisk.contents_add {disk : Ramdisk} {name other : String} (h : other ≠ name)
    (data : Array UInt8) : ((Ramdisk.add other data).run disk).state.contents name =
      disk.contents name := by
  have herase : ∀ files : List (String × Array UInt8),
      (files.eraseP (·.1 == other)).lookup name = files.lookup name := by
    intro files
    induction files with
    | nil => rfl
    | cons file files ih =>
      by_cases hfile : file.1 = other
      · have hname : (name == file.1) = false := beq_false_of_ne (hfile ▸ h.symm)
        rw [List.eraseP_cons_of_pos (by simpa using hfile), List.lookup_cons, hname]
      · rw [List.eraseP_cons_of_neg (by simpa using hfile), List.lookup_cons, List.lookup_cons, ih]
  show (List.lookup name ((other, data) :: _)).getD #[] = (disk.files.lookup name).getD #[]
  rw [List.lookup_cons, beq_false_of_ne h.symm, herase]

/-- On a RAM disk a file keeps its contents until one of its name is added. -/
instance : ContentStore Ramdisk String (String × Array UInt8) where
  Spares added name := added.1 ≠ name
  contents_reopen _ _ := rfl
  contents_change added _ _ h := Ramdisk.contents_add h added.2

/-- From a served directory the contents themselves are open. -/
instance : ContentStore Served (Array UInt8) (String → Except HostFault (Array UInt8)) where
  Spares _ _ := True
  contents_reopen _ _ := rfl
  contents_change _ _ _ _ := rfl

/-! ## Reads of one file -/

/-- A read that was made: the length of its buffer, and how it ended. -/
structure ReadMade where
  len : Nat
  answer : Except Error (Option Nat × List UInt8)

namespace ReadMade

/-- How many bytes came from the file. -/
def count (read : ReadMade) : Nat :=
  match read.answer with
  | .ok (some n, _) => n
  | _ => 0

/-- The bytes that came from the file. -/
def bytes (read : ReadMade) : List UInt8 :=
  match read.answer with
  | .ok (some n, buffer) => buffer.take n
  | _ => []

/-- The read that delivers what comes in `data` after the first `done` bytes, as far as its buffer
goes, and then zeros. -/
def chunk (data : Array UInt8) (done len : Nat) : ReadMade :=
  let n := min len (data.size - done)
  ⟨len, .ok (some n, (data.extract done (done + n)).toList ++ List.replicate (len - n) 0)⟩

variable {data : Array UInt8} {done len : Nat}

@[simp] theorem count_chunk : (chunk data done len).count = min len (data.size - done) := rfl

theorem bytes_chunk (h : done ≤ data.size) :
    (chunk data done len).bytes = (data.toList.drop done).take len := by
  have hlen : (data.toList.drop done).length = data.size - done := by
    rw [List.length_drop, Array.length_toList]
  show List.take _ (_ ++ _) = _
  rw [List.take_append_of_le_length, Array.toList_extract, List.extract_eq_take_drop,
    Nat.add_sub_cancel_left, List.take_take, Nat.min_self, ← hlen, ← List.take_eq_take_min]
  rw [Array.length_toList, Array.size_extract]
  omega

end ReadMade

/-- A buffer that takes the bytes after the first `done` ones, and ends with zeros, is that of the
chunk. -/
theorem ReadMade.chunk_eq (data : Array UInt8) (done len : Nat) :
    let bytes := (data.extract done (done + len)).toList
    chunk data done len = ⟨len, .ok (some bytes.length, padded len bytes)⟩ := by
  intro bytes
  have hlen : bytes.length = min len (data.size - done) := by
    rw [Array.length_toList, Array.size_extract]
    omega
  have hbytes : (data.extract done (done + min len (data.size - done))).toList = bytes := by
    show _ = (data.extract done (done + len)).toList
    rw [Array.toList_extract, Array.toList_extract, List.extract_eq_take_drop,
      List.extract_eq_take_drop, Nat.add_sub_cancel_left, Nat.add_sub_cancel_left,
      ← Array.length_toList, ← List.length_drop, ← List.take_eq_take_min]
  have hle : bytes.length ≤ len := hlen ▸ Nat.min_le_left _ _
  rw [chunk, padded, hbytes, List.take_of_length_le hle, hlen]

/-! ## Reads one after the other -/

/-- Each of the reads delivers what comes after the bytes that those before it delivered. -/
def Delivers (data : Array UInt8) (reads : List ReadMade) : Prop :=
  ∀ (k : Nat) (read : ReadMade), reads[k]? = some read →
    read = .chunk data ((reads.take k).map ReadMade.count).sum read.len

namespace Delivers

variable {data : Array UInt8} {reads : List ReadMade} {read : ReadMade}

theorem nil (data : Array UInt8) : Delivers data [] := nofun

/-- One more read goes on where the others ended. -/
theorem concat (h : Delivers data reads) (len : Nat) :
    Delivers data (reads ++ [.chunk data (reads.map ReadMade.count).sum len]) := by
  intro k read hk
  rcases Nat.lt_or_ge k reads.length with hlt | hge
  · rw [List.getElem?_append_left hlt] at hk
    rw [List.take_append_of_le_length (Nat.le_of_lt hlt)]
    exact h k read hk
  · have hlt := (List.getElem?_eq_some_iff.1 hk).1
    rw [List.length_append, List.length_singleton] at hlt
    obtain rfl : k = reads.length := by omega
    rw [List.getElem?_concat_length] at hk
    obtain rfl := Option.some.inj hk
    rw [List.take_left' rfl]
    rfl

theorem of_append {after : List ReadMade} (h : Delivers data (reads ++ after)) :
    Delivers data reads := by
  intro k read hk
  have hlt := (List.getElem?_eq_some_iff.1 hk).1
  have hread := h k read (by rw [List.getElem?_append_left hlt, hk])
  rwa [List.take_append_of_le_length (Nat.le_of_lt hlt)] at hread

/-- The last read goes on where the others ended. -/
theorem last (h : Delivers data (reads ++ [read])) :
    read = .chunk data (reads.map ReadMade.count).sum read.len := by
  have hread := h reads.length read List.getElem?_concat_length
  rwa [List.take_left' rfl] at hread

/-- As many bytes come from the file as are asked for, but no more than it has. Induction on the
reads, from the last one back. -/
theorem sum_count (h : Delivers data reads) :
    (reads.map ReadMade.count).sum = min (reads.map ReadMade.len).sum data.size := by
  induction reads using List.reverseRecOn with
  | nil => exact (Nat.zero_min _).symm
  | append_singleton reads read ih =>
    have ih := ih h.of_append
    have hcount : read.count = min read.len (data.size - (reads.map ReadMade.count).sum) :=
      congrArg ReadMade.count h.last
    rw [List.map_append, List.map_append, List.sum_append, List.sum_append, List.map_singleton,
      List.map_singleton, List.sum_singleton, List.sum_singleton]
    omega

theorem sum_count_le (h : Delivers data reads) : (reads.map ReadMade.count).sum ≤ data.size :=
  h.sum_count ▸ Nat.min_le_right _ _

/-- Put together, the bytes that came from the file are its beginning. Induction on the reads, from
the last one back. -/
theorem flatMap_bytes (h : Delivers data reads) :
    reads.flatMap ReadMade.bytes = data.toList.take (reads.map ReadMade.len).sum := by
  induction reads using List.reverseRecOn with
  | nil => rfl
  | append_singleton reads read ih =>
    have hbefore := h.of_append
    have ih := ih hbefore
    have hbytes : read.bytes = (data.toList.drop (reads.map ReadMade.count).sum).take read.len :=
      (congrArg ReadMade.bytes h.last).trans (ReadMade.bytes_chunk hbefore.sum_count_le)
    -- where the file has ended, dropping more of it makes no difference
    have hdrop : data.toList.drop (reads.map ReadMade.count).sum =
        data.toList.drop (reads.map ReadMade.len).sum := by
      rw [hbefore.sum_count, ← Array.length_toList]
      rcases Nat.le_total (reads.map ReadMade.len).sum data.toList.length with hle | hle
      · rw [Nat.min_eq_left hle]
      · rw [Nat.min_eq_right hle, List.drop_length, List.drop_eq_nil_of_le hle]
    rw [List.flatMap_append, List.flatMap_singleton, ih, hbytes, hdrop, List.map_append,
      List.sum_append, List.map_singleton, List.sum_singleton, List.take_add]

/-- Where all bytes have been asked for, a read delivers zeros only. -/
theorem answer_of_size_le (h : Delivers data reads) {k : Nat} (hk : reads[k]? = some read)
    (hend : data.size ≤ ((reads.take k).map ReadMade.len).sum) :
    read.answer = .ok (some 0, List.replicate read.len 0) := by
  have hbefore : Delivers data (reads.take k) := by
    rw [← List.take_append_drop k reads] at h
    exact h.of_append
  have hcount := hbefore.sum_count
  rw [Nat.min_eq_right hend] at hcount
  have hread := congrArg ReadMade.answer (h k read hk)
  rw [hcount, ReadMade.chunk_eq, Array.extract_eq_empty_of_le (by omega)] at hread
  simpa [padded] using hread

end Delivers

/-! ## The reads of a descriptor -/

namespace StoreCall

variable {φ κ ε : Type} {call : StoreCall ε} {fd : Nat} {f : OpenFile κ} {file : κ}
  {r : Except Error (Option Nat)} {table table' : DescriptorTable κ}

/-- The call neither closes `fd` nor changes the contents of what is open as `file`. -/
def Leaves [ContentStore φ κ ε] (fd : Nat) (file : κ) : StoreCall ε → Prop
  | .closeAt fd' => fd' ≠ fd
  | .change c => ContentStore.Spares (φ := φ) c file
  | .openName _ | .sizeAt _ | .readAt _ _ => True

/-- The length of the buffer that the call reads into from `fd`. -/
def lenAt? (fd : Nat) : StoreCall ε → Option Nat
  | .readAt fd' buffer => if fd' = fd then some buffer.length else none
  | .openName _ | .sizeAt _ | .closeAt _ | .change _ => none

/-- Makes the call, and shows the buffer as it is then. -/
def shown [TabledStore φ κ ε] (call : StoreCall ε) :
    Op (φ × List UInt8) (Option Nat × List UInt8) := do
  let answer ← call.perform
  .ask fun (_, buffer) => (answer, buffer)

/-- The reads from `fd` among the calls. -/
def readsAt (fd : Nat) (log : List (StoreCall ε × Except Error (Option Nat × List UInt8))) :
    List ReadMade :=
  log.filterMap fun (call, answer) => (call.lenAt? fd).map fun len => ⟨len, answer⟩

/-- A file that is open stays open at its offset, unless it is read or closed. -/
theorem TableStep.get?_of_other (h : TableStep call r table table') (hf : table.get? fd = some f)
    (hread : call.lenAt? fd = none) (hclose : call ≠ .closeAt fd) : table'.get? fd = some f := by
  cases h with
  | opened name file =>
    have hfd : fd ≠ (DescriptorTable.place file table.slots).1 := by
      rintro rfl
      exact absurd ((DescriptorTable.place_fst file table.slots).1.symm.trans hf) nofun
    rw [DescriptorTable.get?, DescriptorTable.place_snd, if_neg hfd, ← DescriptorTable.get?, hf]
  | unopened => exact hf
  | size => exact hf
  | read =>
    rw [DescriptorTable.get?_moveOn_of_ne, hf]
    rintro rfl
    rw [lenAt?, if_pos rfl] at hread
    cases hread
  | closed hopen =>
    rw [DescriptorTable.get?_set_none (Option.isSome_of_eq_some hopen), if_neg, hf]
    rintro rfl
    exact hclose rfl
  | refused => exact hf
  | changed => exact hf

section

variable [TabledStore φ κ ε] {s : φ × List UInt8}

theorem state_shown (call : StoreCall ε) (s : φ × List UInt8) :
    (call.shown.run s).state = (call.perform.run s).state := by
  rw [shown, run_bind]
  rcases call.perform.run s with ⟨_ | answer, s', es⟩ <;> rfl

theorem result_shown {answer : Option Nat} (h : (call.perform.run s).result = .ok answer) :
    (call.shown.run s).result = .ok (answer, (call.perform.run s).state.2) := by
  rw [shown, run_bind]
  rcases hrun : call.perform.run s with ⟨_ | answer', s', es⟩ <;> rw [hrun] at h <;> cases h
  rfl

/-- Apart from changes of its files, a call changes the table of a store alone. -/
theorem reopen_perform (call : StoreCall ε) (s : φ × List UInt8) (hcall : ∀ c, call ≠ .change c) :
    ∃ table, (call.perform.run s).state.1 = TabledStore.reopen s.1 table := by
  have hrefused : ∀ fd, call.fd? = some fd → (TabledStore.opened s.1).get? fd = none →
      ∃ table, (call.perform.run s).state.1 = TabledStore.reopen s.1 table := by
    intro fd hfd hf
    rw [run_perform_of_none hfd hf]
    exact ⟨_, (TabledStore.reopen_opened s.1).symm⟩
  cases call with
  | openName name =>
    cases hname : TabledStore.lookup s.1 name with
    | ok file => exact ⟨_, by rw [run_openName_of_ok hname]⟩
    | error e =>
      rw [run_openName_of_error hname]
      exact ⟨_, (TabledStore.reopen_opened s.1).symm⟩
  | sizeAt fd =>
    cases hf : (TabledStore.opened s.1).get? fd with
    | none => exact hrefused fd rfl hf
    | some f =>
      rw [run_sizeAt_of_get? hf]
      exact ⟨_, (TabledStore.reopen_opened s.1).symm⟩
  | readAt fd buffer =>
    cases hf : (TabledStore.opened s.1).get? fd with
    | none => exact hrefused fd rfl hf
    | some f => exact ⟨_, by rw [run_readAt_of_get? hf]⟩
  | closeAt fd =>
    cases hf : (TabledStore.opened s.1).get? fd with
    | none => exact hrefused fd rfl hf
    | some f => exact ⟨_, by rw [run_closeAt_of_get? hf]⟩
  | change c => exact absurd rfl (hcall c)

end

/-! ## What the reads come to -/

section

variable [ContentStore φ κ ε] {s : φ × List UInt8} {data : Array UInt8} {reads : List ReadMade}
  {log : List (StoreCall ε × Except Error (Option Nat × List UInt8))}

theorem contents_perform (hcall : call.Leaves (φ := φ) fd file) (s : φ × List UInt8) :
    TabledStore.contents (call.perform.run s).state.1 file = TabledStore.contents s.1 file := by
  by_cases hchange : ∃ c, call = .change c
  · obtain ⟨c, rfl⟩ := hchange
    have hstate : (perform (.change c)).run s = (((fun _ => none) <$>
        (TabledStore.change c).fst : Op (φ × List UInt8) (Option Nat))).run s := rfl
    rw [hstate, state_map, run_fst]
    exact ContentStore.contents_change c s.1 file hcall
  · obtain ⟨table, hstate⟩ := reopen_perform call s (not_exists.1 hchange)
    rw [hstate, ContentStore.contents_reopen]

/-- The file is open under `fd` with its contents, and its offset is behind what the reads have
delivered. -/
structure Behind (fd : Nat) (file : κ) (data : Array UInt8) (s : φ × List UInt8)
    (reads : List ReadMade) : Prop where
  contents : TabledStore.contents s.1 file = data
  opened : (TabledStore.opened s.1).get? fd = some ⟨file, (reads.map ReadMade.count).sum⟩
  delivers : Delivers data reads

theorem readsAt_concat (fd : Nat)
    (log : List (StoreCall ε × Except Error (Option Nat × List UInt8))) (call : StoreCall ε)
    (answer : Except Error (Option Nat × List UInt8)) :
    readsAt fd (log ++ [(call, answer)]) =
      readsAt fd log ++ ((call.lenAt? fd).map fun len => ⟨len, answer⟩).toList := by
  rw [readsAt, List.filterMap_append]
  cases h : call.lenAt? fd <;> simp [h, readsAt]

/-- A read of the file delivers the next bytes. -/
theorem Behind.readAt (h : Behind fd file data s reads) (buffer : List UInt8) :
    let o := (shown (.readAt fd buffer)).run s
    Behind fd file data o.state (reads ++ [⟨buffer.length, o.result⟩]) := by
  intro o
  obtain ⟨hcontents, hopened, hdelivers⟩ := h
  have hrun := run_readAt_of_get? hopened buffer
  rw [hcontents] at hrun
  have hresult : o.result = .ok (_, _) := result_shown (congrArg Outcome.result hrun)
  have hchunk : (⟨buffer.length, o.result⟩ : ReadMade) =
      .chunk data (reads.map ReadMade.count).sum buffer.length := by
    rw [ReadMade.chunk_eq, hresult, hrun]
  have hstate : o.state = _ := (state_shown _ s).trans (congrArg Outcome.state hrun)
  have hcount : ((reads ++ [(⟨buffer.length, o.result⟩ : ReadMade)]).map ReadMade.count).sum =
      (reads.map ReadMade.count).sum + (data.extract (reads.map ReadMade.count).sum
        ((reads.map ReadMade.count).sum + buffer.length)).toList.length := by
    rw [List.map_append, List.sum_append, List.map_singleton, List.sum_singleton, hresult]
    rfl
  refine ⟨?_, ?_, hchunk ▸ hdelivers.concat _⟩
  · rw [hstate, ContentStore.contents_reopen, hcontents]
  · rw [hcount, hstate, TabledStore.opened_reopen]
    exact DescriptorTable.get?_moveOn hopened _

/-- Any other call that leaves the file alone leaves it where it is. -/
theorem Behind.other (h : Behind fd file data s reads) (hcall : call.Leaves (φ := φ) fd file)
    (hread : call.lenAt? fd = none) : Behind fd file data (call.shown.run s).state reads := by
  refine ⟨?_, ?_, h.delivers⟩
  · rw [state_shown, contents_perform hcall, h.contents]
  · rw [state_shown]
    refine (perform_step call s).get?_of_other h.opened hread ?_
    rintro rfl
    exact hcall rfl

theorem Behind.shown (h : Behind fd file data s (readsAt fd log))
    (hcall : call.Leaves (φ := φ) fd file) :
    Behind fd file data (call.shown.run s).state
      (readsAt fd (log ++ [(call, (call.shown.run s).result)])) := by
  rw [readsAt_concat]
  by_cases hread : ∃ buffer, call = .readAt fd buffer
  · obtain ⟨buffer, rfl⟩ := hread
    rw [lenAt?, if_pos rfl]
    exact h.readAt buffer
  · have hnone : call.lenAt? fd = none := by
      cases call with
      | readAt fd' buffer =>
        refine if_neg ?_
        rintro rfl
        exact hread ⟨buffer, rfl⟩
      | _ => rfl
    rw [hnone, Option.map_none, Option.toList_none, List.append_nil]
    exact h.other hcall hnone

/-- A file that was opened has nothing behind its offset. -/
theorem behind_of_openName {start : φ} {name : String}
    (hname : TabledStore.lookup start name = .ok file)
    (hdata : TabledStore.contents start file = data) :
    ∃ fd opened es, (FileStore.openName name).run start = ⟨.ok fd, opened, es⟩ ∧
      ∀ buffer, Behind fd file data (opened, buffer) [] := by
  have hrun := TabledStore.run_openName name start
  rw [hname] at hrun
  refine ⟨_, _, _, hrun, fun buffer => ⟨?_, ?_, .nil data⟩⟩
  · exact (congrFun (ContentStore.contents_reopen _ _) file).trans hdata
  · rw [TabledStore.opened_reopen]
    exact (DescriptorTable.place_snd file _ _).trans (if_pos rfl)

/-- What the reads of an open file come to. -/
structure Reassembles (fd : Nat) (data : Array UInt8) (s : φ × List UInt8)
    (reads : List ReadMade) : Prop where
  /-- Each read delivers what is left of the file after those before it, as far as its buffer goes,
  and then zeros. -/
  each : ∀ (k : Nat) (read : ReadMade), reads[k]? = some read →
    read = .chunk data ((reads.take k).map ReadMade.count).sum read.len
  /-- Put together, what was delivered is the beginning of the file. -/
  whole : reads.flatMap ReadMade.bytes = data.toList.take (reads.map ReadMade.len).sum
  /-- Once the file has ended there are zeros only. -/
  ended : ∀ (k : Nat) (read : ReadMade), reads[k]? = some read →
    data.size ≤ ((reads.take k).map ReadMade.len).sum →
    read.answer = .ok (some 0, List.replicate read.len 0)
  /-- The next read begins behind what was delivered, and within the file. -/
  offset : ∃ f, (TabledStore.opened s.1).get? fd = some f ∧
    f.offset = (reads.map ReadMade.count).sum ∧
    f.offset ≤ (TabledStore.contents s.1 f.file).size

theorem Behind.reassembles (h : Behind fd file data s reads) : Reassembles fd data s reads where
  each := h.delivers
  whole := h.delivers.flatMap_bytes
  ended _ _ := h.delivers.answer_of_size_le
  offset := ⟨_, h.opened, rfl, h.contents ▸ h.delivers.sum_count_le⟩

/-- Whatever other calls there are, the reads from the descriptor of a file reassemble it. -/
theorem reassembles_runAll {start : φ} {name : String}
    (hname : TabledStore.lookup start name = .ok file)
    (hdata : TabledStore.contents start file = data) :
    ∃ fd opened es, (FileStore.openName name).run start = ⟨.ok fd, opened, es⟩ ∧
      ∀ (buffer : List UInt8) (calls : List (StoreCall ε)),
        (∀ call ∈ calls, call.Leaves (φ := φ) fd file) →
        let (s, log) := Op.runAll StoreCall.shown (opened, buffer) calls
        Reassembles fd data s (readsAt fd log) := by
  obtain ⟨fd, opened, es, hopen, hbehind⟩ := behind_of_openName hname hdata
  refine ⟨fd, opened, es, hopen, fun buffer calls hcalls => ?_⟩
  have h := Op.runAll_invariant_of_mem (f := StoreCall.shown)
    (I := fun s log => Behind fd file data s (readsAt fd log)) (hbehind buffer) calls
    fun call hmem _ _ h => h.shown (hcalls call hmem)
  exact h.reassembles

end

end StoreCall

/-- Reads from the descriptor of a file reassemble it, in any chunks and between any calls that do
not close it: on a RAM disk as long as no file of its name is added, and in a served directory
whatever becomes of the file there. -/
theorem reads_reassemble (name : String) (data : Array UInt8) :
    (∀ disk : Ramdisk, disk.contents? name = some data →
      ∃ fd opened es, (FileStore.openName name).run disk = ⟨.ok fd, opened, es⟩ ∧
        ∀ (buffer : List UInt8) (calls : List (StoreCall (String × Array UInt8))),
          .closeAt fd ∉ calls → (∀ new, .change (name, new) ∉ calls) →
          let (s, log) := Op.runAll StoreCall.shown (opened, buffer) calls
          StoreCall.Reassembles fd data s (StoreCall.readsAt fd log)) ∧
    ∀ served : Served, served.fetch name = .ok data →
      ∃ fd opened es, (FileStore.openName name).run served = ⟨.ok fd, opened, es⟩ ∧
        ∀ (buffer : List UInt8)
          (calls : List (StoreCall (String → Except HostFault (Array UInt8)))),
          .closeAt fd ∉ calls →
          let (s, log) := Op.runAll StoreCall.shown (opened, buffer) calls
          StoreCall.Reassembles fd data s (StoreCall.readsAt fd log) := by
  constructor
  · intro disk hdisk
    have hname : TabledStore.lookup disk name = .ok name := by
      simp only [TabledStore.lookup, hdisk]
    have hdata : TabledStore.contents disk name = data := by
      show (disk.contents? name).getD #[] = data
      rw [hdisk]
      rfl
    obtain ⟨fd, opened, es, hopen, hreads⟩ := StoreCall.reassembles_runAll hname hdata
    refine ⟨fd, opened, es, hopen, fun buffer calls hclose hchange => hreads buffer calls ?_⟩
    intro call hcall
    cases call with
    | closeAt fd' => exact fun hfd => hclose (hfd ▸ hcall)
    | change added =>
      obtain ⟨other, new⟩ := added
      rintro rfl
      exact hchange new hcall
    | _ => trivial
  · intro served hserved
    have hname : TabledStore.lookup served name = .ok data := by
      simp only [TabledStore.lookup, hserved]
    obtain ⟨fd, opened, es, hopen, hreads⟩ :=
      StoreCall.reassembles_runAll hname (show TabledStore.contents served data = data from rfl)
    refine ⟨fd, opened, es, hopen, fun buffer calls hclose => hreads buffer calls ?_⟩
    intro call hcall
    cases call with
    | closeAt fd' => exact fun hfd => hclose (hfd ▸ hcall)
    | _ => trivial

/-- A file of six bytes. -/
def sixBytes : Ramdisk := ⟨[("/bin/a", #[97, 98, 99, 100, 101, 102])], .empty⟩

/-- The file is read four bytes at a time, while it is open a second time and another one is
added. -/
def sixBytesCalls : List (StoreCall (String × Array UInt8)) :=
  [.readAt 0 [255, 255, 255, 255], .openName "/bin/a", .change ("/bin/b", #[1]),
    .readAt 1 [255, 255, 255], .closeAt 1, .readAt 0 [255, 255, 255, 255], .readAt 0 [255]]

/-- The three reads from the first descriptor deliver the file. -/
theorem reads_reassemble_sixBytes : ∃ (opened : Ramdisk) (es : List Event),
    sixBytes.contents? "/bin/a" = some #[97, 98, 99, 100, 101, 102] ∧
    (FileStore.openName "/bin/a").run sixBytes = ⟨.ok 0, opened, es⟩ ∧
    .closeAt 0 ∉ sixBytesCalls ∧ (∀ new, .change ("/bin/a", new) ∉ sixBytesCalls) ∧
    (StoreCall.readsAt 0 (Op.runAll StoreCall.shown (opened, []) sixBytesCalls).2).flatMap
      ReadMade.bytes = [97, 98, 99, 100, 101, 102] := by
  have hdisk : sixBytes.contents? "/bin/a" = some #[97, 98, 99, 100, 101, 102] := rfl
  obtain ⟨fd, opened, es, hopen, hreads⟩ := (reads_reassemble "/bin/a" _).1 sixBytes hdisk
  obtain ⟨rfl, rfl⟩ : fd = 0 ∧ opened = ⟨sixBytes.files, ⟨[some ⟨"/bin/a", 0⟩]⟩⟩ := by
    cases hopen
    exact ⟨rfl, rfl⟩
  have hclose : .closeAt 0 ∉ sixBytesCalls := by simp [sixBytesCalls]
  have hchange : ∀ new, .change ("/bin/a", new) ∉ sixBytesCalls := by simp [sixBytesCalls]
  exact ⟨_, es, hdisk, hopen, hclose, hchange,
    (hreads [] sixBytesCalls hclose hchange).whole.trans rfl⟩

end PagedMemory
