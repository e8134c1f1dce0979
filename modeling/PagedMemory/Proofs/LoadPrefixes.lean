import PagedMemory.Files.Faulty
import PagedMemory.Proofs.LoadedImages

/-!
# Loads that fail

A load that fails undoes nothing. Yet what it leaves is in order: some of the first pages of the
image are in place, the next one may have a frame already, and nothing else was touched. The files
come from a store that behaves like a RAM disk, but may refuse to tell the size, to read, or to close.

- `Mimics`: what such a store does, told by the RAM disk for which it stands;
- `load_begins`: before the first page nothing is done to memory;
- `Stopped.placed`: what a load leaves, wherever it stops;
- `load_prefix`: the same in memory that any calls led to.
-/

namespace PagedMemory

/-! ## Stores that behave like a RAM disk -/

/-- A run answers like that of a RAM disk, and stands for what that run leaves; or it fails. -/
def Follows {φ α : Type} (R : φ → Ramdisk → Prop) (o : Outcome φ α) (o' : Outcome Ramdisk α) :
    Prop :=
  (o.result = o'.result ∧ R o.state o'.state) ∨ ∃ e, o.result = .error e

/-- The store opens files like a RAM disk, and does all else like one unless it fails. `R` tells for
which RAM disks a state of the store stands. -/
structure Mimics (φ : Type) [FileStore φ] (R : φ → Ramdisk → Prop) : Prop where
  openName : ∀ (name : String) (files : φ) (disk : Ramdisk), R files disk →
    ((FileStore.openName name).run files).result = ((FileStore.openName name).run disk).result ∧
      R ((FileStore.openName name).run files).state ((FileStore.openName name).run disk).state
  sizeAt : ∀ (fd : Nat) (files : φ) (disk : Ramdisk), R files disk →
    Follows R ((FileStore.sizeAt fd).run files) ((FileStore.sizeAt fd).run disk)
  readAt : ∀ (fd len : Nat) (files : φ) (disk : Ramdisk), R files disk →
    Follows R ((FileStore.readAt fd len).run files) ((FileStore.readAt fd len).run disk)
  closeAt : ∀ (fd : Nat) (files : φ) (disk : Ramdisk), R files disk →
    Follows R ((FileStore.closeAt fd).run files) ((FileStore.closeAt fd).run disk)

namespace Mimics

variable {φ α : Type} {R : φ → Ramdisk → Prop} {P : Ramdisk → Prop} {op : Op φ α}
  {op' : Op Ramdisk α} {Q : α → Ramdisk → Prop}

/-- What the RAM disk guarantees, a store that follows it does too, unless it fails. -/
theorem meets_of_follows (h : ∀ files disk, R files disk → Follows R (op.run files) (op'.run disk))
    (hm : Op.Meets P op' Q fun _ _ => False) :
    Op.Meets (fun files => ∃ disk, R files disk ∧ P disk) op
      (fun a files => ∃ disk, R files disk ∧ Q a disk) (fun _ _ => ¬ False) := by
  rintro files ⟨disk, hR, hP⟩
  have hm := hm disk hP
  have h := h files disk hR
  rcases hop : op.run files with ⟨e | a, files', es⟩
  · exact not_false
  · rw [hop] at h
    rcases h with ⟨hresult, hR'⟩ | ⟨e, he⟩
    · rcases hop' : op'.run disk with ⟨e | a', disk', es'⟩
      · rw [hop'] at hresult
        cases hresult
      · rw [hop'] at hm hresult hR'
        cases hresult
        exact ⟨disk', hR', hm⟩
    · cases he

/-- What a store promises about a file that behaves like a RAM disk: the truth, or nothing. -/
def contract [FileStore φ] (h : Mimics φ R) (name : String) (data : Array UInt8) :
    FileContract φ (fun files => ∃ disk, R files disk ∧ disk.contents? name = some data) name where
  reliable := False
  reading fd k files := ∃ disk, R files disk ∧ Ramdisk.Reading name data fd k disk
  size n := n = data.size
  chunk k bytes := bytes = Ramdisk.chunk data k
  openName := meets_of_follows (fun files disk hR => .inl (h.openName name files disk hR))
    (Ramdisk.openName_meets name data)
  sizeAt fd := (meets_of_follows (h.sizeAt fd) (Ramdisk.sizeAt_meets fd)).weaken (fun _ hs => hs)
    (fun _ _ ⟨disk, hR, hsize, hreading⟩ => ⟨hsize, disk, hR, hreading⟩) fun _ _ he => he
  readAt fd k := (meets_of_follows (h.readAt fd Page.size) (Ramdisk.readAt_meets fd k)).weaken
    (fun _ hs => hs) (fun _ _ ⟨disk, hR, hchunk, hreading⟩ => ⟨hchunk, disk, hR, hreading⟩)
    fun _ _ he => he
  closeAt fd k := (meets_of_follows (h.closeAt fd) (Ramdisk.closeAt_meets fd k)).weaken
    (fun _ hs => hs) (fun _ _ _ => trivial) fun _ _ he => he

end Mimics

namespace Faulty

variable {φ : Type} {condition : Faulty φ → Bool} {s : Faulty φ}

theorem run_failIf_of_true (h : condition s = true) (reason : String) :
    (failIf condition reason).run s = ⟨.error (.host (.other reason)), s, []⟩ := by
  rw [failIf, Op.run_query, if_pos h]

theorem run_failIf_of_false (h : condition s = false) (reason : String) :
    (failIf condition reason).run s = ⟨.ok (), s, []⟩ := by
  rw [failIf, Op.run_query, if_neg (by rw [h]; exact Bool.false_ne_true)]

/-- A plan that tells true sizes makes a RAM disk fail, but not lie. -/
theorem mimics : Mimics (Faulty Ramdisk) fun s disk => s.store = disk ∧ s.plan.size? = none where
  openName := by
    rintro name s _ ⟨rfl, hsize⟩
    exact ⟨rfl, rfl, hsize⟩
  sizeAt := by
    rintro fd s _ ⟨rfl, hsize⟩
    show Follows _ (Op.run (failIf _ _ >>= _) s) _
    rw [Op.run_bind]
    cases hfail : s.plan.failSize with
    | true =>
      rw [run_failIf_of_true hfail]
      exact .inr ⟨_, rfl⟩
    | false =>
      rw [run_failIf_of_false hfail]
      show Follows _ (Op.run (onStore (FileStore.sizeAt fd) >>= _) s) _
      rw [Op.run_bind, onStore, Op.run_within]
      rcases hrun : (FileStore.sizeAt fd).run s.store with ⟨e | size, disk, es⟩
      · exact .inr ⟨e, rfl⟩
      · refine .inl ⟨?_, rfl, hsize⟩
        show Except.ok (s.plan.size?.getD size) = _
        rw [hsize]
        rfl
  readAt := by
    rintro fd len s _ ⟨rfl, hsize⟩
    show Follows _ (Op.run (failIf _ _ >>= _) s) _
    rw [Op.run_bind]
    cases hfail : decide (s.plan.failRead? = some s.reads) with
    | true =>
      rw [run_failIf_of_true hfail]
      exact .inr ⟨_, rfl⟩
    | false =>
      rw [run_failIf_of_false hfail]
      exact .inl ⟨rfl, rfl, hsize⟩
  closeAt := by
    rintro fd s _ ⟨rfl, hsize⟩
    show Follows _ (Op.run (onStore (FileStore.closeAt fd) >>= _) s) _
    rw [Op.run_bind, onStore, Op.run_within]
    rcases hrun : (FileStore.closeAt fd).run s.store with ⟨e | u, disk, es⟩
    · exact .inr ⟨e, rfl⟩
    · rw [Outcome.andThen_ok]
      cases hfail : s.plan.failClose with
      | true =>
        rw [run_failIf_of_true hfail]
        exact .inr ⟨_, rfl⟩
      | false =>
        rw [run_failIf_of_false hfail]
        exact .inl ⟨rfl, rfl, hsize⟩

/-- Work on the store itself is none on the plan or on the count of reads. -/
theorem onStore_meets {α : Type} {P : FaultPlan → Nat → Prop} (op : Op φ α) :
    Op.Meets (fun s : Faulty φ => P s.plan s.reads) (onStore op) (fun _ s => P s.plan s.reads)
      (fun _ _ => True) :=
  Op.Meets.within fun _ hs => Op.Meets.always _ (fun _ _ => hs) fun _ _ => trivial

/-- Of a store whose first read fails, no bytes are read. -/
def firstReadFails (φ : Type) [FileStore φ] (name : String) :
    FileContract (Faulty φ) (fun s => s.plan.failRead? = some 0) name where
  reliable := False
  reading _ k s := k = 0 ∧ s.plan.failRead? = some s.reads
  size _ := True
  chunk _ _ := False
  openName := by
    show Op.Meets _ (.update _ >>= fun _ => onStore (FileStore.openName name)) _ _
    refine Op.Meets.bind (Q := fun (_ : Unit) (s : Faulty φ) => s.plan.failRead? = some s.reads)
      (fun s hs => ?_) fun _ => ?_
    · exact hs
    exact (onStore_meets (P := fun plan reads => plan.failRead? = some reads) _).weaken
      (fun _ hs => hs) (fun _ _ hs => ⟨rfl, hs⟩) fun _ _ _ => not_false
  sizeAt fd := by
    show Op.Meets _ (failIf _ _ >>= fun _ => onStore (FileStore.sizeAt fd) >>= fun size =>
      .ask fun s => s.plan.size?.getD size) _ _
    refine Op.Meets.bind (Q := fun _ s => 0 = 0 ∧ s.plan.failRead? = some s.reads)
      (Op.Meets.query (fun _ _ hs _ => hs) fun _ _ _ _ => not_false) fun _ => ?_
    refine Op.Meets.bind ((onStore_meets
      (P := fun plan reads => 0 = 0 ∧ plan.failRead? = some reads) _).onError
        fun _ _ _ => not_false) fun size => ?_
    exact fun _ hs => ⟨trivial, hs⟩
  readAt fd k := by
    show Op.Meets _ (failIf _ _ >>= _) _ _
    refine Op.Meets.bind (Q := fun _ _ => False) ?_ fun _ _ => False.elim
    rintro s ⟨-, hs⟩
    rw [run_failIf_of_true (decide_eq_true hs)]
    exact not_false
  closeAt _ _ := Op.Meets.always _ (fun _ _ => trivial) fun _ _ => not_false

end Faulty

namespace Loader

open Layout

variable {φ α : Type} [FileStore φ] [FrameSource α] {P : φ → Prop} {R : φ → Ramdisk → Prop}
  {spaces : List AddressSpace} {l l' : Layout} {i : Nat} {space : AddressSpace} {loader : Loader}
  {name : String} {data : Array UInt8} {files : φ}

/-! ## Before the first page -/

/-- The file is opened, its size is told, and the pages that it takes end at or below 2 ^ 32. -/
def Begins (loader : Loader) (files : φ) (name : String) (size : Nat) : Prop :=
  ∃ fd files' files'' es es',
    (FileStore.openName name).run files = ⟨.ok fd, files', es⟩ ∧
    (FileStore.sizeAt fd).run files' = ⟨.ok size, files'', es'⟩ ∧
    loader.base.toNat + Page.roundUp size ≤ UInt32.size

/-- The file was opened under `fd`, its size was told, and the store is now `files'`. -/
def Sized (files : φ) (name : String) (fd size : Nat) (files' : φ) : Prop :=
  ∃ opened es es', (FileStore.openName name).run files = ⟨.ok fd, opened, es⟩ ∧
    (FileStore.sizeAt fd).run opened = ⟨.ok size, files', es'⟩

omit [FrameSource α] in
/-- The size of an open file is told, and nothing is done to memory. -/
theorem sizeAt_begins (files : φ) (name : String) (mem : Ram × α) (fd : Nat) :
    Op.Meets (fun s => (∃ es, (FileStore.openName name).run files = ⟨.ok fd, s.1, es⟩) ∧ s.2 = mem)
      ((.fst (FileStore.sizeAt fd) : Op (φ × Ram × α) Nat).onFailure
        (.fst (FileStore.closeAt fd)))
      (fun size s => Sized files name fd size s.1 ∧ s.2 = mem) (fun _ s => s.2 = mem) := by
  refine Op.Meets.onFailure (E := fun _ s => s.2 = mem) (Op.Meets.of_states ?_)
    fun _ => Op.Meets.fst_any (B := (· = mem)) _
  rintro ⟨opened, _⟩ ⟨⟨es, hopen⟩, rfl⟩
  refine ((Op.Meets.run _ opened).fst fun _ _ _ => rfl).weaken ?_ ?_ fun _ _ h => h
  · rintro _ rfl
    exact ⟨rfl, rfl⟩
  · rintro size s ⟨⟨es', hsize⟩, hmem⟩
    exact ⟨⟨opened, es, es', hopen, hsize⟩, hmem⟩

/-- Before the first page of an open file nothing is done to memory. -/
theorem loadPages_begins (loader : Loader) (space : AddressSpace) (files : φ) (name : String)
    (mem : Ram × α) (fd size : Nat) :
    Op.Meets (fun s => Sized files name fd size s.1 ∧ s.2 = mem) (loader.loadPages space fd size)
      (fun _ _ => ∃ size, loader.Begins files name size)
      (fun _ s => (∃ size, loader.Begins files name size) ∨ s.2 = mem) := by
  refine Op.Meets.bind (Q := fun _ _ => ∃ size, loader.Begins files name size)
    (Op.Meets.require ?_ fun _ hs _ => .inr hs.2) fun _ => Op.Meets.lasting _ fun h _ _ => .inl h
  rintro ⟨files', _⟩ ⟨⟨opened, es, es', hopen, hsize⟩, -⟩ hfits
  exact ⟨size, fd, opened, files', es, es', hopen, hsize, hfits⟩

/-- Before the first page nothing is done to memory, and no load succeeds. -/
theorem load_begins (loader : Loader) (space : AddressSpace) (files : φ) (name : String)
    (mem : Ram × α) :
    Op.Meets (fun s => s.1 = files ∧ s.2 = mem) (loader.load space name)
      (fun _ _ => ∃ size, loader.Begins files name size)
      (fun _ s => (∃ size, loader.Begins files name size) ∨ s.2 = mem) := by
  refine Op.Meets.fst_bind (Op.Meets.run _ files) ?_ fun _ _ _ => .inr rfl
  intro fd
  refine Op.Meets.report_bind (Op.Meets.bind
    ((sizeAt_begins files name mem fd).onError fun _ _ h => .inr h) fun size => ?_)
  refine Op.Meets.bind (Q := fun _ s => Sized files name fd size s.1 ∧ s.2 = mem)
    (Op.Meets.require (fun _ hs _ => hs) fun _ hs _ => .inr hs.2) fun _ => ?_
  refine Op.Meets.bind ((loadPages_begins loader space files name mem fd size).andFinally
    (fun _ => Op.Meets.lasting _ fun h _ _ => .inl h) fun _ => ?_)
    fun image => Op.Meets.report_bind (Op.Meets.pure fun _ h => h)
  -- closing the file is no work on memory
  exact Op.Meets.fst_any
    (B := fun mem' => (∃ size, loader.Begins files name size) ∨ mem' = mem) _

/-! ## Where a load stops -/

/-- Wherever a load stops, the pages before some page `k` are in place, and after them nothing but
the page `k` was touched. -/
theorem Stopped.placed {c : FileContract φ P name} {e : Error} {s : Ram × Pool}
    (h : Stopped c loader spaces i space l e s) (hl : l.Valid spaces)
    (hi : spaces[i]? = some space) {size : Nat} (hsize : ∀ n, c.size n → n = size) :
    ∃ (k : Nat) (pages : List PageMapping) (l' l'' : Layout), s = l''.state ∧
      k ≤ Page.count size ∧ InPlace c loader spaces i space l k pages l' ∧
      Loads spaces i space
        (fun n => k < Page.count size ∧ n = Page.number loader.base + k) l' l'' := by
  cases h with
  | early _ =>
    exact ⟨0, [], l, l, rfl, Nat.zero_le _, InPlace.zero c loader hl hi, hl.evolves.loads hi⟩
  | @midway size' k pages l' l'' hsize' hbound hk hplaced hload _ =>
    obtain rfl := hsize size' hsize'
    refine ⟨k, pages, l', l'', rfl, hk.le, hplaced, hload.mono ?_⟩
    rintro n rfl
    exact ⟨hk, number_page hbound hk⟩
  | @closing size' pages l' hsize' _ hplaced _ =>
    obtain rfl := hsize size' hsize'
    exact ⟨_, pages, l', l', rfl, le_rfl, hplaced, hplaced.valid.evolves.loads hi⟩

/-- What a load of `data` at `base` into the space `i` of the memory `m` leaves that stops at the
page `k`: the frames of the pages before are `frames`. -/
structure LeavesPrefix (m : Memory) (i : Nat) (space : AddressSpace) (base : UInt32)
    (data : Array UInt8) (k : Nat) (frames : List UInt32) (ram : Ram) (pool : Pool) : Prop where
  count : k ≤ Page.count data.size
  length : frames.length = k
  /-- Each page before the page `k` has a frame of its own. -/
  nodup : frames.Nodup
  /-- All its addresses lead there, and it holds the bytes of the file. -/
  first : ∀ (x : Nat) (frame : UInt32), frames[x / 4096]? = some frame →
    (base + UInt32.ofNat x).toNat = base.toNat + x ∧
    space.lookup ram (base + UInt32.ofNat x) = .ok (some (frame + UInt32.ofNat (x % 4096))) ∧
    (frame + UInt32.ofNat (x % 4096)).toNat = frame.toNat + x % 4096 ∧
    frame.toNat + x % 4096 < ram.size ∧ ram.byte (frame.toNat + x % 4096) = data[x]?.getD 0
  /-- The page `k` leads where it led, or to a frame that was handed out meanwhile. -/
  next : (∀ a : UInt32, base.toNat + 4096 * k ≤ a.toNat → a.toNat < base.toNat + 4096 * (k + 1) →
      space.lookup ram a = space.lookup m.ram a) ∨
    ∃ frame, pool.Gave (Page.number frame) ∧ ¬ m.pool.Gave (Page.number frame) ∧
      ∀ a : UInt32, base.toNat + 4096 * k ≤ a.toNat → a.toNat < base.toNat + 4096 * (k + 1) →
        space.lookup ram a = .ok (some (frame + UInt32.ofNat (a.toNat % 4096)))
  /-- The pages after it, and those outside the image, lead where they led. -/
  rest : ∀ a : UInt32, a.toNat < base.toNat ∨ base.toNat + 4096 * (k + 1) ≤ a.toNat ∨
      base.toNat + 4096 * Page.count data.size ≤ a.toNat →
    space.lookup ram a = space.lookup m.ram a
  /-- So do all pages of the other spaces. -/
  others : ∀ (j : Nat) (other : AddressSpace) (a : UInt32), m.spaces[j]? = some other → j ≠ i →
    other.lookup ram a = other.lookup m.ram a

/-- The bytes that one store may deliver, another one may deliver as well. -/
theorem Placed.of_chunk {ψ : Type} [FileStore ψ] {P' : ψ → Prop} {c : FileContract φ P name}
    {c' : FileContract ψ P' name} {pages : List PageMapping}
    (h : Placed c loader i space pages l) (hc : ∀ k bytes, c.chunk k bytes → c'.chunk k bytes) :
    Placed c' loader i space pages l := by
  intro k page hk
  obtain ⟨hv, bytes, hchunk, hholds⟩ := h k page hk
  exact ⟨hv, bytes, hc k bytes hchunk, hholds⟩

/-- A page with a frame leads there. -/
theorem lookup_of_frame? (hl : l.Valid spaces) (hi : spaces[i]? = some space) {a frame : UInt32}
    (hf : l.ram.frame? space.directory a = some frame) :
    space.lookup l.ram a = .ok (some (frame + UInt32.ofNat (a.toNat % 4096))) := by
  have ha := Ram.aligned_of_frame? hf
  have hsum : frame ||| Page.offset a = frame + UInt32.ofNat (a.toNat % 4096) := by
    rw [← UInt32.toNat_inj, ha.toNat_or_offset, ha.toNat_add]
  rw [hl.lookup_eq hi, hf, Option.map_some, hsum]

/-- A page that something was loaded into leads where it led, or to a frame that was handed out
meanwhile. -/
theorem lookup_of_loads {touched : Nat → Prop} (hl : l.Valid spaces) (hi : spaces[i]? = some space)
    (h : Loads spaces i space touched l l') (n : Nat) :
    (∀ a, Page.number a = n → space.lookup l'.ram a = space.lookup l.ram a) ∨
      ∃ frame, l'.pool.Gave (Page.number frame) ∧ ¬ l.pool.Gave (Page.number frame) ∧
        ∀ a : UInt32, Page.number a = n →
          space.lookup l'.ram a = .ok (some (frame + UInt32.ofNat (a.toNat % 4096))) := by
  by_cases hn : ∃ a, Page.number a = n
  · obtain ⟨b, rfl⟩ := hn
    rcases h.taken b with hsame | ⟨frame, hf, hu, hg⟩
    · refine .inl fun a ha => ?_
      rw [h.valid.lookup_eq hi, hl.lookup_eq hi, Ram.frame?_congr ha, hsame, Ram.frame?_congr ha]
    · refine .inr ⟨frame, h.valid.gave _ _ hu, hg, fun a ha => ?_⟩
      exact lookup_of_frame? h.valid hi ((Ram.frame?_congr ha).trans hf)
  · exact .inl fun a ha => absurd ⟨a, ha⟩ hn

/-- The first pages in place, and work on none but the next page after that, leave a prefix of the
image. -/
theorem InPlace.leavesPrefix {c : FileContract φ P name} {l'' : Layout} {k : Nat}
    {pages : List PageMapping} (h : InPlace c loader spaces i space l k pages l')
    (hl : l.Valid spaces) (hi : spaces[i]? = some space) (ha : Page.Aligned loader.base)
    (hc : ∀ k bytes, c.chunk k bytes → bytes = Ramdisk.chunk data k)
    (hfits : loader.base.toNat + Page.roundUp data.size ≤ UInt32.size)
    (hk : k ≤ Page.count data.size)
    (hload : Loads spaces i space
      (fun n => k < Page.count data.size ∧ n = Page.number loader.base + k) l' l'') :
    LeavesPrefix (l.memory spaces) i space loader.base data k (pages.map (·.frame)) l''.ram
      l''.pool := by
  have hlen := h.length
  have hb : loader.base.toNat + pages.length * Page.size ≤ UInt32.size := by
    have hle := Nat.mul_le_mul_right Page.size hk
    rw [Page.roundUp] at hfits
    rw [hlen]
    omega
  have hplaced : Placed c loader i space pages l'' := by
    refine h.placed.keeps h.valid hi hload.toEvolves ?_
    rintro m page hm - ⟨-, hn⟩
    rw [← hlen] at hn
    exact h.placed.not_next hb hm hn
  have hall : Loads spaces i space (fun n => loader.Covers k n ∨
      (k < Page.count data.size ∧ n = Page.number loader.base + k)) l l'' :=
    (h.toLoads.mono fun _ => .inl).trans (hload.mono fun _ => .inr)
  have hbase := ha.toNat_eq
  refine ⟨hk, by rw [List.length_map, hlen], hplaced.nodup hb, ?_, ?_, ?_, ?_⟩
  · intro x frame hx
    rw [List.getElem?_map, Option.map_eq_some_iff] at hx
    obtain ⟨page, hx, rfl⟩ := hx
    have hdisk : Placed (Ramdisk.contract name data) loader i space pages l'' :=
      hplaced.of_chunk hc
    obtain ⟨hframe, hbyte⟩ := hdisk.byte hx
    have hframefits : page.frame.toNat + 4096 ≤ l''.ram.size := hframe.fits
    exact ⟨toNat_base_add hb hx, hplaced.lookup hb hx ha hload.valid hi, hframe.1.toNat_add x,
      by omega, hbyte⟩
  · have hnumber : ∀ a : UInt32, loader.base.toNat + 4096 * k ≤ a.toNat →
        a.toNat < loader.base.toNat + 4096 * (k + 1) →
          Page.number a = Page.number loader.base + k := by
      intro a hlo hhi
      rw [Page.number] at hbase ⊢
      rw [Page.number]
      omega
    rcases lookup_of_loads hl hi hall (Page.number loader.base + k) with hsame | hnew
    · exact .inl fun a hlo hhi => hsame a (hnumber a hlo hhi)
    · obtain ⟨frame, hg, hg', hlookup⟩ := hnew
      exact .inr ⟨frame, hg, hg', fun a hlo hhi => hlookup a (hnumber a hlo hhi)⟩
  · intro a hout
    refine hall.toEvolves.lookup hl hi fun _ ht => ?_
    rw [Covers, Page.number, Page.number] at ht
    rw [Page.number] at hbase
    omega
  · intro j other a hj hji
    exact hall.toEvolves.lookup hl hj fun h => absurd h hji

/-- A load that fails before its first page leaves memory as it is. One that fails later leaves a
prefix of the image: the pages before some page `k`, each in a frame of its own, with the bytes of
the file; the page `k` as it was or in a frame that was handed out meanwhile; and nothing else. -/
theorem load_prefix (hR : Mimics φ R) {m : Memory} (hm : m.Reached)
    (hi : m.spaces[i]? = some space) {base : UInt32} (hbase : withBase base = .ok loader)
    {files' : φ} {disk : Ramdisk} (hfiles : R files disk) {e : Error} {ram' : Ram} {pool' : Pool}
    {es : List Event} (hload : (loader.load space name).run (files, m.ram, m.pool) =
      ⟨.error e, (files', ram', pool'), es⟩) :
    ((∀ size, ¬ loader.Begins files name size) → ram' = m.ram ∧ pool' = m.pool) ∧
    ∀ size, loader.Begins files name size → ∃ data, disk.contents? name = some data ∧
      size = data.size ∧ ∃ (k : Nat) (frames : List UInt32),
        LeavesPrefix m i space base data k frames ram' pool' := by
  obtain ⟨haligned, rfl⟩ := withBase_eq_ok_iff.1 hbase
  obtain ⟨l, spaces, rfl, hl⟩ := hm.orderly
  have hi : spaces[i]? = some space := hi
  have hload : (load ⟨base⟩ space name).run (files, l.state) = _ := hload
  constructor
  · intro hnever
    have hbegins := load_begins ⟨base⟩ space files name l.state (files, l.state) ⟨rfl, rfl⟩
    rw [hload] at hbegins
    rcases hbegins with ⟨size, hsize⟩ | hsame
    · exact absurd hsize (hnever size)
    · exact Prod.mk.inj hsame
  · rintro size ⟨fd, files₁, files₂, es₁, es₂, hopen, hsize, hfits⟩
    -- the file is there, since it was opened, and its size is the one that was told
    obtain ⟨data, hdata⟩ : ∃ data, disk.contents? name = some data := by
      have hresult := (hR.openName name files disk hfiles).1
      rw [hopen] at hresult
      exact Ramdisk.contents_of_openName hresult.symm
    have hreading := (hR.contract name data).openName files ⟨disk, hfiles, hdata⟩
    rw [hopen] at hreading
    have htold := (hR.contract name data).sizeAt fd files₁ hreading
    rw [hsize] at htold
    obtain ⟨rfl, -⟩ : size = data.size ∧ _ := htold
    have hcontract : Op.Meets _ (load ⟨base⟩ space name) _ _ :=
      load_inPlace (hR.contract name data) hl hi
    have hstopped := hcontract (files, l.state) ⟨⟨disk, hfiles, hdata⟩, rfl⟩
    rw [hload] at hstopped
    obtain ⟨k, pages, l', l'', hs, hk, hplaced, hnext⟩ := hstopped.placed hl hi fun _ h => h
    obtain ⟨rfl, rfl⟩ := Prod.mk.inj hs
    exact ⟨data, hdata, rfl, k, _,
      hplaced.leavesPrefix hl hi haligned (fun _ _ h => h) hfits hk hnext⟩

/-- The small disk behind a plan by which the first read fails. -/
def brokenDisk : Faulty Ramdisk := ⟨smallDisk, { FaultPlan.none with failRead? := some 0 }, 0⟩

/-- The load of a file of three bytes fails where its first page is read. -/
theorem load_brokenDisk (hl : l.Valid spaces) (hi : spaces[i]? = some space) : ∃ e s es,
    (standard.load space "init").run (brokenDisk, l.state) = ⟨.error e, s, es⟩ := by
  have hread : Op.Meets _ (standard.load space "init") _ _ :=
    load_inPlace (Faulty.firstReadFails Ramdisk "init") hl hi
  have hread := hread (brokenDisk, l.state) ⟨rfl, rfl⟩
  have hdisk : Op.Meets _ (standard.load space "init") _ _ :=
    load_inPlace (Faulty.mimics.contract "init" #[1, 2, 3]) hl hi
  have hdisk := hdisk (brokenDisk, l.state) ⟨⟨smallDisk, ⟨rfl, rfl⟩, contents?_smallDisk⟩, rfl⟩
  rcases hrun : (standard.load space "init").run (brokenDisk, l.state) with ⟨e | image, s, es⟩
  · exact ⟨e, s, es, rfl⟩
  · -- the one page of the image would hold bytes that were not read
    rw [hrun] at hread hdisk
    obtain ⟨_, -, -, hloaded⟩ := hread
    obtain ⟨_, -, -, hloaded'⟩ := hdisk
    have hlen : image.pages.length = 1 := by
      rw [hloaded'.length, hloaded'.size]
      rfl
    obtain ⟨page, hpage⟩ : ∃ page, image.pages[0]? = some page :=
      ⟨_, List.getElem?_eq_getElem (by omega)⟩
    obtain ⟨-, bytes, hchunk, -⟩ := hloaded.placed 0 page hpage
    exact hchunk.elim

/-- A load that fails where the first page is read, in an empty space. -/
theorem load_prefix_brokenDisk : ∃ (m : Memory) (space : AddressSpace) (e : Error)
    (files : Faulty Ramdisk) (ram : Ram) (pool : Pool) (es : List Event) (k : Nat)
    (frames : List UInt32), m.Reached ∧ m.spaces[0]? = some space ∧
      (standard.load space "init").run (brokenDisk, m.ram, m.pool) =
        ⟨.error e, (files, ram, pool), es⟩ ∧
      LeavesPrefix m 0 space 0x08048000 #[1, 2, 3] k frames ram pool := by
  obtain ⟨zero, hzero⟩ : ∃ zero, Ram.zeroed 65536 = .ok zero := ⟨_, rfl⟩
  let range : Range := ⟨0, 65536⟩
  have hroom : (Layout.start zero range).Roomy 1 :=
    roomy_start (by rw [Ram.size_of_zeroed hzero]; decide) (by decide)
  obtain ⟨l, space, hstate, hl, -⟩ := Memory.create_of_roomy (valid_start zero range) hroom
  have hreached := (Memory.reached_start zero range).perform (.edit .create)
  rw [Call.perform, Edit.perform, ← memory_start, hstate] at hreached
  obtain ⟨e, ⟨files, ram, pool⟩, es, hload⟩ := load_brokenDisk hl (i := 0) rfl
  obtain ⟨-, hlater⟩ := load_prefix Faulty.mimics hreached (i := 0) rfl
    (show withBase 0x08048000 = .ok standard from rfl)
    (show brokenDisk.store = smallDisk ∧ brokenDisk.plan.size? = none from ⟨rfl, rfl⟩) hload
  obtain ⟨data, hdata, -, k, frames, hleaves⟩ := hlater 3 ⟨0, _, _, _, _, rfl, rfl, by decide⟩
  rw [contents?_smallDisk] at hdata
  obtain rfl := Option.some.inj hdata
  exact ⟨_, space, e, files, ram, pool, es, k, frames, hreached, rfl, hload, hleaves⟩

end Loader

end PagedMemory
