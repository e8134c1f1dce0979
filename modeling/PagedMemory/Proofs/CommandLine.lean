import PagedMemory.Cli.Program
import PagedMemory.Proofs.OptionWords
import PagedMemory.Proofs.ServedContract
import PagedMemory.Proofs.SoleImages

/-!
# What the command line shows

The program prints lines about the image, and the words of a dump up to the first address that has
none. Both are told here without a machine: by the file, by the RAM that the load leaves, and by
what each word of the new space answers. Tracking has no part in it.

- `dumpFrom_eq`: a dump is its words up to the first that fails;
- `shown_load`: what `load` shows, told without tracking;
- `shown_of_fetch`: what that is for a file that is found;
- `run_dump_exact`: the dump is that of the image, with or without the option for tracking.
-/

namespace PagedMemory

namespace Cli

open Layout Loader

/-! ## Words one after the other -/

/-- The addresses of `count` words from `vaddr` on. Behind the highest follows the lowest. -/
def addressesFrom (vaddr : UInt32) (count : Nat) : List UInt32 :=
  (List.range count).map fun n => vaddr + UInt32.ofNat (4 * n)

theorem addressesFrom_succ (vaddr : UInt32) (count : Nat) :
    addressesFrom vaddr (count + 1) = vaddr :: addressesFrom (vaddr + 4) count := by
  have hshift : ∀ n, vaddr + UInt32.ofNat (4 * (n + 1)) = vaddr + 4 + UInt32.ofNat (4 * n) := by
    intro n
    rw [← UInt32.toNat_inj]
    simp only [UInt32.toNat_add, UInt32.toNat_ofNat']
    change _ = ((vaddr.toNat + 4) % 2 ^ 32 + _) % 2 ^ 32
    omega
  unfold addressesFrom
  rw [List.range_succ_eq_map, List.map_cons, List.map_map]
  refine congrArg₂ List.cons (UInt32.add_zero vaddr) (List.map_congr_left fun n _ => ?_)
  exact hshift n

/-- The words at the addresses up to the first that has none, and why it has none. -/
def readOut (answer : UInt32 → Except Error UInt32) :
    List UInt32 → List (UInt32 × UInt32) × Option Error
  | [] => ([], none)
  | vaddr :: rest =>
    match answer vaddr with
    | .ok word => ((vaddr, word) :: (readOut answer rest).1, (readOut answer rest).2)
    | .error e => ([], some e)

/-- Where it is known which addresses have words, the words are those up to the first without. -/
theorem readOut_eq {answer : UInt32 → Except Error UInt32} {p : UInt32 → Prop} [DecidablePred p]
    {word : UInt32 → UInt32} (hword : ∀ vaddr, p vaddr → answer vaddr = .ok (word vaddr))
    (hnone : ∀ vaddr, ¬ p vaddr → ∃ e, answer vaddr = .error e) (vaddrs : List UInt32) :
    (readOut answer vaddrs).1 = (vaddrs.takeWhile (p ·)).map (fun vaddr => (vaddr, word vaddr)) ∧
      ((readOut answer vaddrs).2 = none ↔ ∀ vaddr ∈ vaddrs, p vaddr) := by
  induction vaddrs with
  | nil =>
    constructor
    · rfl
    · exact ⟨fun _ _ h => absurd h List.not_mem_nil, fun _ => rfl⟩
  | cons vaddr rest ih =>
    obtain ⟨ihwords, ihend⟩ := ih
    rw [List.forall_mem_cons, List.takeWhile_cons]
    by_cases hp : p vaddr
    · have hcons : readOut answer (vaddr :: rest) =
          ((vaddr, word vaddr) :: (readOut answer rest).1, (readOut answer rest).2) := by
        rw [readOut, hword vaddr hp]
      rw [hcons, if_pos (decide_eq_true hp), List.map_cons, ihwords, ihend]
      exact ⟨rfl, fun h => ⟨hp, h⟩, fun h => h.2⟩
    · obtain ⟨e, he⟩ := hnone vaddr hp
      have hcons : readOut answer (vaddr :: rest) = ([], some e) := by
        rw [readOut, he]
      rw [hcons, if_neg (by simpa using hp)]
      exact ⟨rfl, fun h => (by cases h), fun h => absurd h.1 hp⟩

/-- A dump shows the words up to the first that fails, if each read of the machine answers `answer`
and leads to a machine that does so, too. Induction on the words that are left. -/
theorem dumpFrom_eq {δ : Type} [Device δ] {regs : Registers} {I : Machine δ → Prop}
    {answer : UInt32 → Except Error UInt32}
    (hstep : ∀ m vaddr, I m → ((Machine.read regs vaddr 4).run m).result = answer vaddr ∧
      I ((Machine.read regs vaddr 4).run m).state)
    {m : Machine δ} (hm : I m) (vaddr : UInt32) (words : List (UInt32 × UInt32))
    (events : List Event) (count : Nat) :
    (dumpFrom regs m vaddr words events count).words =
        words.reverse ++ (readOut answer (addressesFrom vaddr count)).1 ∧
      (dumpFrom regs m vaddr words events count).error? =
        (readOut answer (addressesFrom vaddr count)).2 := by
  induction count generalizing m vaddr words events with
  | zero => exact ⟨(List.append_nil _).symm, rfl⟩
  | succ count ih =>
    obtain ⟨hresult, hnext⟩ := hstep m vaddr hm
    rw [addressesFrom_succ]
    unfold dumpFrom readOut
    rcases hrun : (Machine.read regs vaddr 4).run m with ⟨e | word, m', es⟩
    · rw [hrun] at hresult
      rw [← hresult]
      exact ⟨(List.append_nil _).symm, rfl⟩
    · rw [hrun] at hresult hnext
      rw [← hresult]
      obtain ⟨ihwords, ihend⟩ := ih hnext (vaddr + 4) ((vaddr, word) :: words)
        (es.reverseAux events)
      constructor
      · refine ihwords.trans ?_
        rw [List.reverse_cons, List.append_assoc, List.singleton_append]
      · exact ihend

/-! ## What is shown, without tracking -/

/-- The lines of a report, and why the command failed. -/
def Report.shown (report : Report) : List String × Option Fault := (report.lines, report.fault?)

/-- What is shown of the image, once it was loaded, and of the dump, if there is one. -/
def shownOf (dump? : Option Dump) (path : String) (space : AddressSpace) (image : Image) (ram : Ram)
    (pool : Pool) : List String × Option Fault :=
  match dump? with
  | none => (imageLines path space pool image, none)
  | some dump =>
    let words := readOut (answer ram (.paged space.cr3)) (addressesFrom dump.start dump.count.toNat)
    (imageLines path space pool image ++ "" :: words.1.map wordLine, words.2.map .machine)

/-- What is shown where an image is loaded into RAM. -/
def shownOn {φ : Type} [FileStore φ] (files : φ) (options : Options) (path name : String)
    (ram : Ram) : List String × Option Fault :=
  match poolFrom ram options.poolStart with
  | none => ([], some (.poolBeyondRam options.poolStart))
  | some pool =>
    match (standard.loadNew name).run (files, ram, pool) with
    | ⟨.error e, _, _⟩ => ([], some (.machine e))
    | ⟨.ok (space, image), (_, ram, pool), _⟩ => shownOf options.dump? path space image ram pool

/-- What the words ask for: options, the path of the image, its directory and its name. -/
def request (words : List String) : Except Fault (Options × String × String × String) := do
  let options ← Options.initial.read words
  pure (options, ← imageFile options)

/-- What is shown where there are `size` bytes of RAM. -/
def shownIn {φ : Type} [FileStore φ] (files : φ) (options : Options) (path name : String)
    (size : Nat) : List String × Option Fault :=
  match Ram.zeroed size with
  | .error e => ([], some (.machine e))
  | .ok ram => shownOn files options path name ram

/-- What is shown of a request. -/
def shown {φ : Type} [FileStore φ] (serve : String → φ) :
    Except Fault (Options × String × String × String) → List String × Option Fault
  | .error fault => ([], some fault)
  | .ok (options, path, directory, name) =>
    shownIn (serve directory) options path name (options.memory.toNat * 1048576)

/-- The size of RAM by a name that hides how it is computed: where the product itself is in sight,
two terms are compared by multiplying it out. -/
theorem exists_size (φ : Type) [FileStore φ] : ∃ size : Options → Nat,
    (∀ options, options.memory.toNat * 1048576 = size options) ∧
    (∀ options, (Setup.ofList [.mebibytes options.memory, .tracking options.tracking] :
      Setup Empty) = ⟨size options, options.tracking, []⟩) ∧
    ∀ (serve : String → φ) (options : Options) (path directory name : String),
      shown serve (.ok (options, path, directory, name)) =
        shownIn (serve directory) options path name (size options) :=
  ⟨fun options => options.memory.toNat * 1048576, fun _ => rfl, fun _ => rfl, fun _ _ _ _ _ => rfl⟩

/-- A machine is loaded as its memory is. -/
theorem loadFresh_eq {φ α δ : Type} [FileStore φ] [FrameSource α] (name : String) :
    (loadFresh name : Op (φ × Machine δ × α) (AddressSpace × Image)) =
      Machine.onMemory (standard.loadNew name) := by
  ext1 s
  obtain ⟨files, ⟨⟨ram, table⟩, tracking⟩, source⟩ := s
  rw [Machine.run_onMemory]
  unfold loadFresh loadNew
  rw [Op.run_bind, Op.run_bind, Op.run_snd, Op.run_snd, Machine.createSpace,
    Machine.run_onRamWith]
  rcases AddressSpace.create.run (ram, source) with ⟨e | space, ⟨ram', source'⟩, es⟩
  · rfl
  · simp only [Outcome.andThen_ok, Op.run_bind, Machine.load, Machine.run_onMemory]
    rcases (standard.load space name).run (files, ram', source') with ⟨e | image, s', es'⟩ <;> rfl

theorem run_loadFresh {φ α : Type} [FileStore φ] [FrameSource α] (name : String) (files : φ)
    (ram : Ram) (tracking : Tracking) (source : α) :
    (loadFresh name).run (files, (⟨.ofRam ram, tracking⟩ : Machine Empty), source) =
      let o := (standard.loadNew name).run (files, ram, source)
      ⟨o.result, (o.state.1, ⟨.ofRam o.state.2.1, tracking⟩, o.state.2.2), o.events⟩ := by
  rw [loadFresh_eq, Machine.run_onMemory]
  rfl

/-- A pool that was found holds the frames of RAM from the start on. A RAM of all addresses is a byte
more than a pool can hold, and loses its last frame by that: hence the bound on `n`. -/
theorem exists_range {ram : Ram} {start : UInt32} {pool : Pool}
    (h : poolFrom ram start = some pool) : ∃ range, pool = .ofRange range ∧
      ∀ n, n < 1048576 → Page.roundUp start.toNat + Page.size * n ≤ ram.size →
        (Layout.start ram range).Roomy n := by
  unfold poolFrom at h
  by_cases hsize : ram.size - start.toNat = 0
  · rw [if_pos hsize] at h
    cases h
  · rw [if_neg hsize] at h
    refine ⟨_, (Option.some.inj h).symm, fun n hn hroom => ?_⟩
    have hmax := ram.size_bounds.2
    have hstop : Range.stop ⟨start, UInt32.ofNat (min (ram.size - start.toNat) (UInt32.size - 1))⟩ =
        start.toNat + min (ram.size - start.toNat) 4294967295 := by
      unfold Range.stop
      rw [UInt32.toNat_ofNat']
      simp only [UInt32.size]
      omega
    simp only [UInt32.size] at hmax
    refine roomy_start ?_ ?_
    · rw [hstop]
      omega
    · rw [hstop]
      simp only [Page.roundUp, Page.count, Page.size] at hroom ⊢
      omega

/-- A dump of the new space is what its words answer, whatever the tracking. -/
theorem dumpFrom_of_sole {φ : Type} [FileStore φ] {P : φ → Prop} {name : String}
    {c : FileContract φ P name} {l : Layout} {space : AddressSpace} {image : Image}
    (h : Sole c standard space image l) (tracking : Tracking) (vaddr : UInt32) (count : Nat) :
    let dumped :=
      dumpFrom (.paged space.cr3) (⟨.ofRam l.ram, tracking⟩ : Machine Empty) vaddr [] [] count
    (dumped.words, dumped.error?) =
      readOut (answer l.ram (.paged space.cr3)) (addressesFrom vaddr count) := by
  -- along the dump the machine stays paired with the one that leaves no marks
  have hstep := fun (m : Machine Empty) (vaddr : UInt32)
      (hm : GuestCall.Paired (l.IsTable 0) (l.IsPage 0) l.ram ⟨.ofRam l.ram, .discard⟩ m) =>
    hm.read (fun _ hn => hn.not_isTable) (h.valid.tablesIn_paged (i := 0) rfl)
      (Registers.pagingEnabled_paged _) (h.leads vaddr 4)
  obtain ⟨hwords, hend⟩ := dumpFrom_eq hstep (paired_ofRam _ _ _ _ tracking) vaddr [] [] count
  exact Prod.ext hwords hend

theorem shown_loadOn {φ : Type} [FileStore φ] (files : φ) (options : Options) (path name : String)
    (ram : Ram) (tracking : Tracking) :
    (loadOn files options path name ⟨.ofRam ram, tracking⟩).shown =
      shownOn files options path name ram := by
  unfold loadOn shownOn
  rw [show (Bus.ofRam ram : Bus Empty).ram = ram from rfl]
  cases hpool : poolFrom ram options.poolStart with
  | none => rfl
  | some pool =>
    obtain ⟨range, rfl, -⟩ := exists_range hpool
    -- any image will do that the store may answer with: only its space is read
    have hmeets := loadNew_meets (FileContract.any φ name) standard (valid_start ram range)
      (files, ram, .ofRange range) ⟨trivial, rfl⟩
    have hfresh := run_loadFresh name files ram tracking (Pool.ofRange range)
    rcases hrun : (standard.loadNew name).run (files, ram, Pool.ofRange range) with
      ⟨e | ⟨space, image⟩, ⟨files', ram', pool'⟩, es⟩
    · rw [hrun] at hfresh
      simp only [hfresh, hrun]
      rfl
    · rw [hrun] at hfresh hmeets
      obtain ⟨l, hs, hsole⟩ := hmeets
      obtain ⟨rfl, rfl⟩ := Prod.mk.inj hs
      simp only [hfresh, hrun]
      unfold shownOf
      cases options.dump? with
      | none => rfl
      | some dump =>
        have hdumped := dumpFrom_of_sole hsole tracking dump.start dump.count.toNat
        simp only [← hdumped]
        rfl

/-- A machine without devices is built as soon as there is RAM for it. -/
theorem build_plain {δ : Type} (size : Nat) (tracking : Tracking) :
    (⟨size, tracking, []⟩ : Setup δ).build =
      match Ram.zeroed size with
      | .error e => (.error e, [])
      | .ok ram => (.ok ⟨.ofRam ram, tracking⟩, [.built size 0 tracking]) := by
  unfold Setup.build
  cases Ram.zeroed size <;> rfl

/-- What `load` shows does not depend on tracking. -/
theorem shown_load {φ : Type} [FileStore φ] (serve : String → φ) (words : List String) :
    (load serve words).shown = shown serve (request words) := by
  have hrequest : request words = (do
    let options ← Options.initial.read words
    pure (options, ← imageFile options)) := rfl
  obtain ⟨size, -, hsetup, hshown⟩ := exists_size φ
  unfold load
  rw [← hrequest]
  -- the size is hidden before the setup is opened that it stands in
  simp -zeta only [hsetup]
  rcases request words with fault | ⟨options, path, directory, name⟩
  · rfl
  · rw [hshown]
    simp only [build_plain]
    unfold shownIn
    cases Ram.zeroed (size options) with
    | error e => rfl
    | ok ram => exact shown_loadOn (serve directory) options path name ram options.tracking

/-! ## What is printed -/

theorem Report.stdout_transcript (filter : Log.Filter) (report : Report) :
    (report.transcript filter).stdout = unlines report.shown.1 := by
  unfold transcript shown
  cases report.fault? <;> rfl

theorem Report.exit_transcript (filter : Log.Filter) (report : Report) :
    (report.transcript filter).exit = if report.shown.2 = none then 0 else 1 := by
  unfold transcript shown
  cases report.fault? <;> rfl

/-- What is shown of a request depends on all options but tracking. -/
theorem shown_request_congr {φ : Type} [FileStore φ] (serve : String → φ)
    {words words' : List String}
    (h : (Options.initial.read words).map Options.untracked =
      (Options.initial.read words').map Options.untracked) :
    shown serve (request words) = shown serve (request words') := by
  have hshown : ∀ (o : Options) (path directory name : String),
      shown serve (.ok (o, path, directory, name)) =
        shown serve (.ok (o.untracked, path, directory, name)) := by
    intro o path directory name
    obtain ⟨size, hsize, -, heq⟩ := exists_size φ
    have hsame : size o.untracked = size o := (hsize o.untracked).symm.trans (hsize o)
    rw [heq, heq, hsame]
    rfl
  have huntracked : ∀ o : Options,
      shown serve (imageFile o >>= fun file => pure (o, file)) =
        shown serve (imageFile o.untracked >>= fun file => pure (o.untracked, file)) := by
    intro o
    rw [show imageFile o.untracked = imageFile o from rfl]
    cases imageFile o with
    | error fault => rfl
    | ok file => exact hshown o file.1 file.2.1 file.2.2
  unfold request
  generalize Options.initial.read words = r at h
  generalize Options.initial.read words' = r' at h
  rcases r with fault | o
  · rcases r' with fault' | o'
    · cases h
      rfl
    · cases h
  · rcases r' with fault' | o'
    · cases h
    · have hsame : o.untracked = o'.untracked := Except.ok.inj h
      refine (huntracked o).trans ?_
      rw [hsame]
      exact (huntracked o').symm

/-- The RAM asked for can be had, the image has addresses, and behind the start of the pool there is
a frame for the directory, one for each page, and one more for the table of each page. -/
structure Room (options : Options) (size : Nat) : Prop where
  ram : options.memory.toNat * 1048576 ≤ UInt32.size
  bound : standard.base.toNat + Page.roundUp size ≤ UInt32.size
  frames : Page.roundUp options.poolStart.toNat + Page.size * (2 * Page.count size + 1) ≤
    options.memory.toNat * 1048576

theorem Room.zeroed {options : Options} {size : Nat} (h : Room options size) :
    ∃ ram, Ram.zeroed (options.memory.toNat * 1048576) = .ok ram := by
  have hframes := h.frames
  simp only [Page.size] at hframes
  unfold Ram.zeroed
  rw [dif_pos ⟨by omega, h.ram⟩]
  exact ⟨_, rfl⟩

theorem Room.poolFrom {options : Options} {size : Nat} (h : Room options size) {ram : Ram}
    (hram : ram.size = options.memory.toNat * 1048576) :
    ∃ pool, Cli.poolFrom ram options.poolStart = some pool := by
  have hframes := h.frames
  have hround := (Page.le_roundUp options.poolStart.toNat).1
  simp only [Page.size] at hframes
  unfold Cli.poolFrom
  rw [if_neg (by omega)]
  exact ⟨_, rfl⟩

/-- With room for it, the image of a file that is found is loaded. -/
theorem Room.enough {options : Options} {data : Array UInt8} (h : Room options data.size)
    {ram : Ram} (hram : ram.size = options.memory.toNat * 1048576) (name : String) {range : Range}
    (hrange : ∀ n, n < 1048576 → Page.roundUp options.poolStart.toNat + Page.size * n ≤ ram.size →
      (Layout.start ram range).Roomy n) :
    (Layout.start ram range).Roomy 1 ∧
      Enough (Served.contract name data) standard ((Layout.start ram range).openDirectory 0) := by
  have hroom : (Layout.start ram range).Roomy (2 * Page.count data.size + 1) := by
    have hframes := h.frames
    have hmax := h.ram
    simp only [UInt32.size, Page.size] at hmax hframes
    refine hrange _ (by omega) ?_
    rw [hram]
    exact h.frames
  refine ⟨hroom.mono (Nat.le_add_left 1 _), trivial, by decide, ?_⟩
  rintro _ rfl
  exact ⟨h.bound, hroom.advance (size_openDirectory _ _) (pool_openDirectory _ _)⟩

/-- The image is shown, and behind it the words of the dump that lie on it, up to the first address
that does not. Only where all addresses lie on the image there is no fault. -/
def ShowsDump (path : String) (data : Array UInt8) (dump : Dump)
    (r : List String × Option Fault) : Prop :=
  let vaddrs := addressesFrom dump.start dump.count.toNat
  ∃ (space : AddressSpace) (pool : Pool) (image : Image), image.size = data.size ∧
    image.pages.map (·.vaddr) = standard.addresses (Page.count data.size) ∧
    r.1 = imageLines path space pool image ++ "" ::
      (vaddrs.takeWhile (standard.OnImage data.size ·)).map (fun vaddr =>
        wordLine (vaddr, paddedWord data (vaddr.toNat - standard.base.toNat) 4)) ∧
    (r.2 = none ↔ ∀ vaddr ∈ vaddrs, standard.OnImage data.size vaddr)

theorem showsDump_of_sole {name : String} {data : Array UInt8} {l : Layout} {space : AddressSpace}
    {image : Image} (h : Sole (Served.contract name data) standard space image l) (dump : Dump)
    (path : String) (pool : Pool) :
    ShowsDump path data dump (shownOf (some dump) path space image l.ram pool) := by
  have hsize : image.size = data.size := h.size
  have hbase : Page.Aligned standard.base := by decide
  obtain ⟨hwords, hend⟩ := readOut_eq (p := standard.OnImage data.size)
    (fun vaddr hv => h.answer_of_onImage (fun _ _ hc => hc) hsize hbase hv)
    (fun vaddr hv => h.answer_of_not_onImage hbase (hsize ▸ hv))
    (addressesFrom dump.start dump.count.toNat)
  refine ⟨space, pool, image, hsize, hsize ▸ h.vaddrs, ?_, ?_⟩
  · unfold shownOf
    simp only [hwords, List.map_map]
    rfl
  · unfold shownOf
    rw [Option.map_eq_none_iff]
    exact hend

/-- What is shown of a file that is found, unless there is no room for its image. -/
theorem shown_of_fetch {serve : String → Served} {options : Options} {path directory name : String}
    {data : Array UInt8} {dump : Dump} (hdata : (serve directory).fetch name = .ok data)
    (hdump : options.dump? = some dump) :
    (∃ fault, shown serve (.ok (options, path, directory, name)) = ([], some fault) ∧
        ¬ Room options data.size) ∨
      ShowsDump path data dump (shown serve (.ok (options, path, directory, name))) := by
  obtain ⟨size, hsize, -, hshown⟩ := exists_size Served
  rw [hshown]
  unfold shownIn
  cases hzero : Ram.zeroed (size options) with
  | error e =>
    refine .inl ⟨_, rfl, fun hroom => ?_⟩
    obtain ⟨ram, hram⟩ := hroom.zeroed
    rw [hsize, hzero] at hram
    cases hram
  | ok ram =>
    have hram : ram.size = options.memory.toNat * 1048576 :=
      (Ram.size_of_zeroed hzero).trans (hsize options).symm
    show (∃ fault, shownOn (serve directory) options path name ram = _ ∧ _) ∨
      ShowsDump path data dump (shownOn (serve directory) options path name ram)
    unfold shownOn
    cases hpool : poolFrom ram options.poolStart with
    | none =>
      refine .inl ⟨_, rfl, fun hroom => ?_⟩
      obtain ⟨pool, hsome⟩ := hroom.poolFrom hram
      rw [hpool] at hsome
      cases hsome
    | some pool =>
      obtain ⟨range, rfl, hrange⟩ := exists_range hpool
      have hmeets := loadNew_meets (Served.contract name data) standard (valid_start ram range)
        (serve directory, ram, .ofRange range) ⟨hdata, rfl⟩
      rcases hrun : (standard.loadNew name).run (serve directory, ram, Pool.ofRange range) with
        ⟨e | ⟨space, image⟩, ⟨served, ram', pool'⟩, es⟩
      · -- a load that stops had less than it needs, and with room there is enough
        rw [hrun] at hmeets
        simp only [hrun]
        exact .inl ⟨_, rfl, fun hroom => hmeets (hroom.enough hram name hrange)⟩
      · rw [hrun] at hmeets
        obtain ⟨l, hs, hsole⟩ := hmeets
        obtain ⟨rfl, rfl⟩ := Prod.mk.inj hs
        simp only [hrun, hdump]
        exact .inr (showsDump_of_sole hsole dump path l.pool)

/-- The command line dumps the image and nothing else. Whatever the words ask for, of the addresses
of the dump those are printed that come before the first one off the image, each with the word that
the file has there, zeros behind its end; where one is off the image the program exits with 1. Only
where there is no room for the image nothing is printed. And the option for tracking, wherever it is
not taken as the value of another option, makes no difference to what is printed and to the exit
code. -/
theorem run_dump_exact (filter : Log.Filter) (program : String) :
    (∀ (serve : String → Served) (words : List String) (options : Options)
        (path directory name : String) (data : Array UInt8) (dump : Dump),
      Options.initial.read words = .ok options →
      imageFile options = .ok (path, directory, name) →
      (serve directory).fetch name = .ok data →
      options.dump? = some dump →
      let t := run filter serve program ("load" :: words)
      let vaddrs := addressesFrom dump.start dump.count.toNat
      (t.stdout = "" ∧ t.exit = 1 ∧ ¬ Room options data.size) ∨
        ∃ (space : AddressSpace) (pool : Pool) (image : Image), image.size = data.size ∧
          image.pages.map (·.vaddr) = standard.addresses (Page.count data.size) ∧
          t.stdout = unlines (imageLines path space pool image ++ "" ::
            (vaddrs.takeWhile (standard.OnImage data.size ·)).map (fun vaddr =>
              wordLine (vaddr, paddedWord data (vaddr.toNat - standard.base.toNat) 4))) ∧
          t.exit = if vaddrs.all (standard.OnImage data.size ·) then 0 else 1) ∧
    ∀ {φ : Type} [FileStore φ] (serve : String → φ) (before after : List String),
      (∀ option, Options.initial.read before ≠ .error (.missingValue option)) →
      let t := run filter serve program ("load" :: (before ++ "--write-back" :: after))
      let t' := run filter serve program ("load" :: (before ++ after))
      t.stdout = t'.stdout ∧ t.exit = t'.exit := by
  have hrun : ∀ {φ : Type} [FileStore φ] (serve : String → φ) (words : List String),
      run filter serve program ("load" :: words) = (load serve words).transcript filter :=
    fun _ _ => rfl
  constructor
  · intro serve words options path directory name data dump hread hfile hdata hdump
    have hrequest : request words = .ok (options, path, directory, name) := by
      unfold request
      rw [hread]
      show (imageFile options >>= fun file => pure (options, file)) = _
      rw [hfile]
      rfl
    simp only [hrun, Report.stdout_transcript, Report.exit_transcript, shown_load, hrequest]
    rcases shown_of_fetch hdata hdump with ⟨fault, hshown, hroom⟩ | hshown
    · rw [hshown]
      exact .inl ⟨rfl, rfl, hroom⟩
    · obtain ⟨space, pool, image, hsize, hpages, hlines, hfault⟩ := hshown
      refine .inr ⟨space, pool, image, hsize, hpages, congrArg unlines hlines, ?_⟩
      refine if_congr (hfault.trans ?_) rfl rfl
      simp only [List.all_eq_true, decide_eq_true_eq]
  · intro φ _ serve before after hbefore
    have hsame := shown_request_congr serve (Options.read_writeBack hbefore after)
    simp only [hrun, Report.stdout_transcript, Report.exit_transcript, shown_load, hsame, and_self]

def smallFile : Array UInt8 := #[1, 2, 3]

/-- A directory with one file, of three bytes. -/
def smallDirectory : Served :=
  .ofFetch fun name => if name = "init" then .ok smallFile else .error .missing

/-- The last word of the first page, and the word behind it. -/
def lastWord : Dump := ⟨0x08048ffc, 2⟩

/-- The last word of the only page is printed, and the one behind it is no longer on the image. -/
theorem run_dump_exact_threeBytes : ∃ header : List String,
    let options := ["init", "--memory", "1", "--pool-start", "4096"]
    let t := run (.ofSettings none none) (fun _ => smallDirectory) "guestmem"
      ("load" :: (options ++ ["--dump", "0x8048ffc:2"]))
    let t' := run (.ofSettings none none) (fun _ => smallDirectory) "guestmem"
      ("load" :: (options ++ "--write-back" :: ["--dump", "0x8048ffc:2"]))
    t.stdout = unlines (header ++ ["", "0x08048ffc: 0x00000000"]) ∧ t.exit = 1 ∧
      t'.stdout = t.stdout ∧ t'.exit = t.exit := by
  obtain ⟨hdump, hflag⟩ := run_dump_exact (.ofSettings none none) "guestmem"
  have hbefore : Options.initial.read ["init", "--memory", "1", "--pool-start", "4096"] =
      .ok ⟨some "init", 1, 4096, none, .discard⟩ := by rfl
  have hsame := hflag (fun _ => smallDirectory) ["init", "--memory", "1", "--pool-start", "4096"]
    ["--dump", "0x8048ffc:2"] fun option h => by
      rw [hbefore] at h
      cases h
  have hread : Options.initial.read (["init", "--memory", "1", "--pool-start", "4096"] ++
      ["--dump", "0x8048ffc:2"]) = .ok ⟨some "init", 1, 4096, some lastWord, .discard⟩ := by rfl
  have hroom : Room ⟨some "init", 1, 4096, some lastWord, .discard⟩ smallFile.size :=
    ⟨by decide, by decide, by decide⟩
  have hlines : ((addressesFrom lastWord.start lastWord.count.toNat).takeWhile
      (standard.OnImage smallFile.size ·)).map (fun vaddr =>
        wordLine (vaddr, paddedWord smallFile (vaddr.toNat - standard.base.toNat) 4)) =
      ["0x08048ffc: 0x00000000"] := by decide +kernel
  have hend : ¬ (addressesFrom lastWord.start lastWord.count.toNat).all
      (standard.OnImage smallFile.size ·) = true := by decide +kernel
  rcases hdump (fun _ => smallDirectory) _ _ "init" "" "init" smallFile lastWord hread rfl rfl rfl
    with ⟨-, -, hno⟩ | ⟨space, pool, image, -, -, hstdout, hexit⟩
  · exact absurd hroom hno
  · rw [hlines] at hstdout
    rw [if_neg hend] at hexit
    exact ⟨imageLines "init" space pool image, hstdout, hexit, hsame⟩

end Cli

end PagedMemory
