import PagedMemory.Image
import PagedMemory.Proofs.Traces

/-!
# Traces of a load

What a load does is told by its trace, whatever the file store and the source of frames answer. That
nothing is missing there is seen from a store that records all calls on it.

- `LoadStep.Runs`: the steps of a load, and what each of them does;
- `PageTrace`, `PagesTrace`, `BodyTrace`, `OpenTrace`, `LoadTrace`: the traces of a page, of all
  pages, of all that is done with an open file, of the same with its end, and of a load;
- `load_traces`: every load has such a trace;
- `BodyTrace.findSome?`: the first step that fails decides;
- `readsMapped_of_collected`: what was done for a page before it is read.
-/

namespace PagedMemory

/-! ## Calls on a store -/

/-- A call on a file store, with its answer. -/
inductive FileCall
  | openName (name : String) (r : Except Error Nat)
  | sizeAt (fd : Nat) (r : Except Error Nat)
  | readAt (fd len : Nat) (r : Except Error (List UInt8))
  | closeAt (fd : Nat) (r : Except Error Unit)

namespace FileCall

/-- The call is made on a store, which answers as the call says. -/
def Runs {φ : Type} [FileStore φ] : FileCall → φ → φ → Prop
  | .openName name r => (FileStore.openName name).Answers r
  | .sizeAt fd r => (FileStore.sizeAt fd).Answers r
  | .readAt fd len r => (FileStore.readAt fd len).Answers r
  | .closeAt fd r => (FileStore.closeAt fd).Answers r

/-- The error that the store answered. -/
def error? : FileCall → Option Error
  | .openName _ r => Op.failure? r
  | .sizeAt _ r => Op.failure? r
  | .readAt _ _ r => Op.failure? r
  | .closeAt _ r => Op.failure? r

end FileCall

/-- A store with a record of the calls on it. -/
structure Recorded (φ : Type) where
  store : φ
  calls : List FileCall

namespace Recorded

variable {φ α : Type}

/-- Runs an operation on the store, and records the call with its answer. -/
def record (call : Except Error α → FileCall) (op : Op φ α) : Op (Recorded φ) α := ⟨fun s =>
  ⟨(op.run s.store).result, ⟨(op.run s.store).state, s.calls ++ [call (op.run s.store).result]⟩,
    (op.run s.store).events⟩⟩

instance [FileStore φ] : FileStore (Recorded φ) where
  openName name := record (.openName name) (FileStore.openName name)
  sizeAt fd := record (.sizeAt fd) (FileStore.sizeAt fd)
  readAt fd len := record (.readAt fd len) (FileStore.readAt fd len)
  closeAt fd := record (.closeAt fd) (FileStore.closeAt fd)

theorem calls_of_answers {call : Except Error α → FileCall} {op : Op φ α} {r : Except Error α}
    {s t : Recorded φ} (h : (record call op).Answers r s t) : t.calls = s.calls ++ [call r] := by
  rw [← h.state_eq, ← h.result_eq]
  rfl

/-- No call is left out of the record. -/
theorem calls_of_runs [FileStore φ] {call : FileCall} {s t : Recorded φ} (h : call.Runs s t) :
    t.calls = s.calls ++ [call] := by
  cases call <;> exact calls_of_answers h

end Recorded

/-! ## Steps of a load -/

/-- A step of a load, with what came of it. -/
inductive LoadStep
  /-- A call on the file store. -/
  | file (call : FileCall)
  /-- The size is taken into the sums that the range needs. -/
  | checkSums (size : Nat) (r : Except Error Unit)
  /-- The image is given its range. -/
  | checkRange (size : Nat) (r : Except Error Unit)
  /-- A frame is taken from the source. -/
  | allocate (r : Except Error UInt32)
  /-- A page is mapped. -/
  | map (vaddr frame : UInt32) (r : Except Error Unit)
  /-- The frame is looked for in RAM. -/
  | checkFrame (frame : UInt32) (r : Except Error Unit)
  /-- The frame is filled. -/
  | fill (frame : UInt32) (bytes : List UInt8) (r : Except Error Unit)

namespace LoadStep

/-- The call that the step makes on the file store. -/
def call? : LoadStep → Option FileCall
  | .file call => some call
  | _ => none

theorem call?_eq_some_iff {step : LoadStep} {call : FileCall} :
    step.call? = some call ↔ step = .file call := by
  cases step <;> simp [call?]

/-- The error with which the step ended. -/
def error? : LoadStep → Option Error
  | .file call => call.error?
  | .checkSums _ r => Op.failure? r
  | .checkRange _ r => Op.failure? r
  | .allocate r => Op.failure? r
  | .map _ _ r => Op.failure? r
  | .checkFrame _ r => Op.failure? r
  | .fill _ _ r => Op.failure? r

variable {φ α : Type} [FileStore φ] [FrameSource α]

/-- The step is taken from one state to another. -/
def Runs (loader : Loader) (space : AddressSpace) : LoadStep → φ × Ram × α → φ × Ram × α → Prop
  | .file call => fun s t => call.Runs s.1 t.1 ∧ t.2 = s.2
  | .checkSums size r => (Op.require (loader.SumsFit size) .sumTooLarge).Answers r
  | .checkRange size r => (Op.require (loader.base.toNat + Page.roundUp size ≤ UInt32.size)
      (.badRange ⟨loader.base, UInt32.ofNat (min size (UInt32.size - 1))⟩)).Answers r
  | .allocate r => (Op.snd (.snd FrameSource.allocate)).Answers r
  | .map vaddr frame r => (Op.snd (space.map vaddr frame)).Answers r
  | .checkFrame frame r => (Op.query fun (_, ram, _) => ram.checkFrame frame).Answers r
  | .fill frame bytes r =>
    (Op.snd (.fst (Ram.writeFrame frame (padded Page.size bytes)))).Answers r

variable {loader : Loader} {space : AddressSpace} {step : LoadStep} {s t : φ × Ram × α}

/-- A step that makes no call on the store leaves it alone. -/
theorem Runs.files (h : Runs loader space step s t) (hc : step.call? = none) : t.1 = s.1 := by
  cases step with
  | file call => cases hc
  | checkSums size r => rw [← Op.Answers.state_eq h, Op.run_require]
  | checkRange size r => rw [← Op.Answers.state_eq h, Op.run_require]
  | allocate r => rw [← Op.Answers.state_eq h, Op.run_snd]
  | map vaddr frame r => rw [← Op.Answers.state_eq h, Op.run_snd]
  | checkFrame frame r => rw [← Op.Answers.state_eq h, Op.run_query]
  | fill frame bytes r => rw [← Op.Answers.state_eq h, Op.run_snd]

/-- Whether the sums fit is all that decides. -/
theorem Runs.checkSums {size : Nat} {r : Except Error Unit}
    (h : Runs loader space (.checkSums size r) s t) :
    r = if loader.SumsFit size then .ok () else .error .sumTooLarge := by
  rw [← Op.Answers.result_eq h, Op.run_require]

/-- Where they do not fit the program ends, and leaves everything as it is. -/
theorem Runs.not_sumsFit {size : Nat} {e : Error}
    (h : Runs loader space (.checkSums size (.error e)) s t) :
    ¬ loader.SumsFit size ∧ e = .sumTooLarge ∧ t = s := by
  have hr := h.checkSums
  by_cases hfit : loader.SumsFit size
  · rw [if_pos hfit] at hr
    cases hr
  · rw [if_neg hfit] at hr
    cases hr
    exact ⟨hfit, rfl, (Op.Answers.state_eq h).symm⟩

/-- The record of a store lists the calls of the steps. Induction on the steps. -/
theorem calls_of_performs {steps : List LoadStep} {s t : Recorded φ × Ram × α}
    (h : Op.Performs (Runs loader space) steps s t) :
    t.1.calls = s.1.calls ++ steps.filterMap call? := by
  induction h with
  | nil s => rw [List.filterMap_nil, List.append_nil]
  | @cons step steps s t u hstep _ ih =>
    rw [ih]
    cases hc : step.call? with
    | none => rw [List.filterMap_cons_none hc, hstep.files hc]
    | some call =>
      rw [List.filterMap_cons_some hc]
      obtain rfl := call?_eq_some_iff.1 hc
      rw [Recorded.calls_of_runs hstep.1, List.append_assoc, List.singleton_append]

end LoadStep

/-! ## Traces of a load -/

open LoadStep Op

/-- The frame of a page that was just mapped is filled from the file. -/
inductive FillTrace (fd : Nat) (vaddr frame : UInt32) :
    List LoadStep → Except Error PageMapping → Prop
  | checkFrame (e : Error) : FillTrace fd vaddr frame [.checkFrame frame (.error e)] (.error e)
  | readAt (e : Error) : FillTrace fd vaddr frame
      [.checkFrame frame (.ok ()), .file (.readAt fd Page.size (.error e))] (.error e)
  | done (bytes : List UInt8) : FillTrace fd vaddr frame
      [.checkFrame frame (.ok ()), .file (.readAt fd Page.size (.ok bytes)),
        .fill frame bytes (.ok ())] (.ok ⟨vaddr, frame⟩)

/-- A page gets a frame, which is mapped and filled. -/
inductive PageTrace (fd : Nat) (vaddr : UInt32) : List LoadStep → Except Error PageMapping → Prop
  | allocate (e : Error) : PageTrace fd vaddr [.allocate (.error e)] (.error e)
  | map (frame : UInt32) (e : Error) :
      PageTrace fd vaddr [.allocate (.ok frame), .map vaddr frame (.error e)] (.error e)
  | fill {frame : UInt32} {steps : List LoadStep} {r : Except Error PageMapping} :
      FillTrace fd vaddr frame steps r →
      PageTrace fd vaddr (.allocate (.ok frame) :: .map vaddr frame (.ok ()) :: steps) r

/-- The pages of an open file of this size are loaded. -/
inductive PagesTrace (loader : Loader) (fd size : Nat) :
    List LoadStep → Except Error Image → Prop
  | checkRange (e : Error) : PagesTrace loader fd size [.checkRange size (.error e)] (.error e)
  | pages {steps : List LoadStep} {r : Except Error (List PageMapping)} :
      Collected (fun k => PageTrace fd (loader.base + UInt32.ofNat (Page.size * k)))
        (List.range (Page.count size)) steps r →
      PagesTrace loader fd size (.checkRange size (.ok ()) :: steps)
        (r.map fun pages => ⟨loader.base, size, pages⟩)

/-- An open file is asked for its size, and its pages are loaded. -/
inductive BodyTrace (loader : Loader) (fd : Nat) : List LoadStep → Except Error Image → Prop
  | sizeAt (e : Error) : BodyTrace loader fd [.file (.sizeAt fd (.error e))] (.error e)
  | pages {size : Nat} {steps : List LoadStep} {r : Except Error Image} :
      PagesTrace loader fd size steps r →
      BodyTrace loader fd (.file (.sizeAt fd (.ok size)) :: .checkSums size (.ok ()) :: steps) r

/-- An open file is loaded and closed. It stays open where the program ends. -/
inductive OpenTrace (loader : Loader) (fd : Nat) : List LoadStep → Except Error Image → Prop
  | checkSums (size : Nat) (e : Error) : OpenTrace loader fd
      [.file (.sizeAt fd (.ok size)), .checkSums size (.error e)] (.error e)
  | closeAt {body : List LoadStep} {r : Except Error Image} (closed : Except Error Unit) :
      BodyTrace loader fd body r →
      OpenTrace loader fd (body ++ [.file (.closeAt fd closed)])
        (do let image ← r; let _ ← closed; pure image)

/-- The pages of an open file of this size are loaded, and it is closed. -/
inductive ClosedTrace (loader : Loader) (fd size : Nat) :
    List LoadStep → Except Error Image → Prop
  | closeAt {steps : List LoadStep} {r : Except Error Image} (closed : Except Error Unit) :
      PagesTrace loader fd size steps r →
      ClosedTrace loader fd size (steps ++ [.file (.closeAt fd closed)])
        (do let image ← r; let _ ← closed; pure image)

/-- The same, unless the sums of this size do not fit. -/
inductive SizedTrace (loader : Loader) (fd size : Nat) :
    List LoadStep → Except Error Image → Prop
  | checkSums (e : Error) : SizedTrace loader fd size [.checkSums size (.error e)] (.error e)
  | closed {steps : List LoadStep} {r : Except Error Image} : ClosedTrace loader fd size steps r →
      SizedTrace loader fd size (.checkSums size (.ok ()) :: steps) r

/-- What is done with an open file once its size is told, told from when it is asked for. -/
theorem SizedTrace.opened {loader : Loader} {fd size : Nat} {steps : List LoadStep}
    {r : Except Error Image} (h : SizedTrace loader fd size steps r) :
    OpenTrace loader fd (.file (.sizeAt fd (.ok size)) :: steps) r := by
  cases h with
  | checkSums e => exact .checkSums size e
  | closed h =>
    cases h with
    | closeAt closed h => exact .closeAt closed (.pages h)

/-- A file is opened, and what follows is done with it. -/
inductive LoadTrace (loader : Loader) (name : String) : List LoadStep → Except Error Image → Prop
  | openName (e : Error) : LoadTrace loader name [.file (.openName name (.error e))] (.error e)
  | opened {fd : Nat} {steps : List LoadStep} {r : Except Error Image} :
      OpenTrace loader fd steps r →
      LoadTrace loader name (.file (.openName name (.ok fd)) :: steps) r

namespace Loader

variable {φ α : Type} [FileStore φ] [FrameSource α] (loader : Loader) (space : AddressSpace)

/-- An operation on the file store is a call on it. -/
theorem traces_file {β : Type} {op : Op φ β} (call : Except Error β → FileCall)
    (h : ∀ r s t, op.Answers r s t → (call r).Runs s t) :
    Traces (Runs loader space) (.fst op : Op (φ × Ram × α) β)
      fun steps r => steps = [.file (call r)] := by
  refine Traces.step (fun r => LoadStep.file (call r)) ?_
  rintro r s t hrun
  rw [← hrun.state_eq, ← hrun.result_eq, run_fst]
  exact ⟨h _ _ _ (answers_run op s.1), rfl⟩

/-- The frame was found in RAM before the file was read, so that filling it does not fail. -/
theorem traces_fill (fd : Nat) (vaddr frame : UInt32) :
    Traces (Runs loader space)
      (do .query fun (_, ram, _) => ram.checkFrame frame
          let bytes ← .fst (FileStore.readAt fd Page.size)
          .snd (.fst (Ram.writeFrame frame (padded Page.size bytes)))
          .report (.pageLoaded vaddr frame)
          pure ⟨vaddr, frame⟩ : Op (φ × Ram × α) PageMapping)
      (FillTrace fd vaddr frame) := by
  rintro ⟨files, ram, source⟩
  have hcheck : Runs loader space (.checkFrame frame (ram.checkFrame frame)) (files, ram, source)
      (files, ram, source) := ⟨[], rfl⟩
  rw [run_bind, run_query]
  show ∃ steps, Performs (Runs loader space) steps _
    (Outcome.andThen ⟨ram.checkFrame frame, _, _⟩ _).state ∧ FillTrace fd vaddr frame steps
      (Outcome.andThen ⟨ram.checkFrame frame, _, _⟩ _).result
  cases hc : ram.checkFrame frame with
  | error e =>
    rw [hc] at hcheck
    exact ⟨_, .cons hcheck (.nil _), .checkFrame e⟩
  | ok u =>
    rw [hc] at hcheck
    rw [Outcome.andThen_ok, Outcome.after_nil, run_bind, run_fst]
    have hread : Runs loader space (.file (.readAt fd Page.size
        ((FileStore.readAt fd Page.size).run files).result)) (files, ram, source)
        (((FileStore.readAt fd Page.size).run files).state, ram, source) :=
      ⟨answers_run _ files, rfl⟩
    rcases hr : (FileStore.readAt fd Page.size).run files with ⟨e | bytes, files', es⟩
    · rw [hr] at hread
      exact ⟨_, .cons hcheck (.cons hread (.nil _)), .readAt e⟩
    · rw [hr] at hread
      have hrun : (Ram.writeFrame frame (padded Page.size bytes)).run ram =
          ⟨.ok (), ram.store frame.toNat ((padded Page.size bytes).take Page.size), []⟩ := by
        rw [Ram.writeFrame, run_amend_ok]
        exact hc
      have hfill : Runs loader space (.fill frame bytes (.ok ())) (files', ram, source)
          (files', ram.store frame.toNat ((padded Page.size bytes).take Page.size), source) :=
        ⟨[], by rw [run_snd, run_fst, hrun]⟩
      rw [Outcome.andThen_ok, run_bind, run_snd, run_fst, hrun]
      exact ⟨_, .cons hcheck (.cons hread (.cons hfill (.nil _))), .done bytes⟩

/-- A page is loaded in this order. -/
theorem traces_page (fd : Nat) (vaddr : UInt32) :
    Traces (Runs loader space) (loadPage space fd vaddr : Op (φ × Ram × α) PageMapping)
      (PageTrace fd vaddr) := by
  refine (Traces.step .allocate fun _ _ _ h => h).bind (U := fun frame vs r =>
    (∃ e, vs = [.map vaddr frame (.error e)] ∧ r = .error e) ∨
      ∃ us, vs = .map vaddr frame (.ok ()) :: us ∧ FillTrace fd vaddr frame us r) ?_ ?_ ?_
  · intro frame
    refine (Traces.step (.map vaddr frame) fun _ _ _ h => h).bind
      (fun _ => traces_fill loader space fd vaddr frame) ?_ ?_
    · rintro us e rfl
      exact .inl ⟨e, rfl, rfl⟩
    · rintro us _ vs r rfl hfill
      exact .inr ⟨vs, rfl, hfill⟩
  · rintro us e rfl
    exact .allocate e
  · rintro us frame vs r rfl (⟨e, rfl, rfl⟩ | ⟨us, rfl, hfill⟩)
    · exact .map frame e
    · exact .fill hfill

/-- The pages of an open file are loaded in this order. -/
theorem traces_pages (fd size : Nat) :
    Traces (Runs loader space) (loader.loadPages space fd size : Op (φ × Ram × α) Image)
      (PagesTrace loader fd size) := by
  refine (Traces.step (.checkRange size) fun _ _ _ h => h).bind (U := fun _ us r =>
    ∃ r', r = r'.map (fun pages => ⟨loader.base, size, pages⟩) ∧
      Collected (fun k => PageTrace fd (loader.base + UInt32.ofNat (Page.size * k)))
        (List.range (Page.count size)) us r') ?_ ?_ ?_
  · intro _
    refine (Traces.collect (fun k => traces_page loader space fd _) _).bind
      (fun pages => Traces.pure _) ?_ ?_
    · exact fun us e h => ⟨_, rfl, h⟩
    · rintro us pages vs r h ⟨rfl, rfl⟩
      rw [List.append_nil]
      exact ⟨_, rfl, h⟩
  · rintro us e rfl
    exact .checkRange e
  · rintro us _ vs r rfl ⟨r', rfl, h⟩
    exact .pages h

/-- A store that does not tell the size is told to close the file. -/
theorem traces_size (fd : Nat) :
    Traces (Runs loader space)
      ((.fst (FileStore.sizeAt fd) : Op (φ × Ram × α) Nat).onFailure (.fst (FileStore.closeAt fd)))
      fun steps r => ∃ closing, steps = .file (.sizeAt fd r) :: closing ∧
        ((∃ size, r = .ok size) → closing = []) ∧
        ∀ e, r = .error e → ∃ closed, closing = [.file (.closeAt fd closed)] := by
  refine (traces_file loader space (.sizeAt fd) fun _ _ _ h => h).onFailure
    (traces_file loader space (.closeAt fd) fun _ _ _ h => h) ?_ ?_
  · rintro us size rfl
    exact ⟨[], rfl, fun _ => rfl, nofun⟩
  · rintro us e vs closed rfl rfl
    exact ⟨_, rfl, nofun, fun _ _ => ⟨closed, rfl⟩⟩

/-- The pages of an open file are loaded, and the file is closed. -/
theorem traces_closed (fd size : Nat) (name : String) :
    Traces (Runs loader space)
      (do let image ← (loader.loadPages space fd size).andFinally (.fst (FileStore.closeAt fd))
          .report (.imageLoaded name image.size image.pages.length image.entry)
          pure image : Op (φ × Ram × α) Image)
      (ClosedTrace loader fd size) := by
  refine Traces.bind (T := ClosedTrace loader fd size)
    ((traces_pages loader space fd size).andFinally
      (traces_file loader space (.closeAt fd) fun _ _ _ h => h) ?_)
    (fun image => Traces.report_bind (Traces.pure image)) (fun _ _ h => h) ?_
  · rintro us r _ closed h rfl
    exact .closeAt closed h
  · rintro us image vs r h ⟨rfl, rfl⟩
    rwa [List.append_nil]

/-- A file of this size is loaded and closed, unless the sums do not fit. -/
theorem traces_sized (fd size : Nat) (name : String) :
    Traces (Runs loader space)
      (do .require (loader.SumsFit size) .sumTooLarge
          let image ← (loader.loadPages space fd size).andFinally (.fst (FileStore.closeAt fd))
          .report (.imageLoaded name image.size image.pages.length image.entry)
          pure image : Op (φ × Ram × α) Image)
      (SizedTrace loader fd size) := by
  refine (Traces.step (.checkSums size) fun _ _ _ h => h).bind
    (fun _ => traces_closed loader space fd size name) ?_ ?_
  · rintro us e rfl
    exact .checkSums e
  · rintro us _ vs r rfl h
    exact .closed h

/-- Every load has such a trace. -/
theorem load_traces (name : String) :
    Traces (Runs loader space) (loader.load space name : Op (φ × Ram × α) Image)
      (LoadTrace loader name) := by
  refine (traces_file loader space (.openName name) fun _ _ _ h => h).bind
    (U := fun fd => OpenTrace loader fd) (fun fd => Traces.report_bind ?_) ?_ ?_
  · refine (traces_size loader space fd).bind
      (fun size => traces_sized loader space fd size name) ?_ ?_
    · rintro us e ⟨closing, rfl, -, hclosing⟩
      obtain ⟨closed, rfl⟩ := hclosing e rfl
      exact .closeAt closed (.sizeAt e)
    · rintro us size vs r ⟨closing, rfl, hclosing, -⟩ h
      obtain rfl := hclosing ⟨size, rfl⟩
      exact h.opened
  · rintro us e rfl
    exact .openName e
  · rintro us fd vs r rfl h
    exact .opened h

end Loader

/-! ## What the traces say -/

section

variable {loader : Loader} {name : String} {fd : Nat} {vaddr frame : UInt32}
  {steps : List LoadStep}

/-- The result of a page has the error of its first step that fails. -/
theorem PageTrace.findSome? {r : Except Error PageMapping} (h : PageTrace fd vaddr steps r) :
    steps.findSome? LoadStep.error? = failure? r := by
  cases h with
  | allocate e => rfl
  | map frame e => rfl
  | fill h => cases h <;> rfl

/-- So has the result of all pages. -/
theorem PagesTrace.findSome? {size : Nat} {r : Except Error Image}
    (h : PagesTrace loader fd size steps r) : steps.findSome? LoadStep.error? = failure? r := by
  cases h with
  | checkRange e => rfl
  | pages h =>
    rw [failure?_map, ← Collected.findSome? (fun _ _ _ h => h.findSome?) h]
    rfl

/-- So has the result of an open file. -/
theorem BodyTrace.findSome? {r : Except Error Image} (h : BodyTrace loader fd steps r) :
    steps.findSome? LoadStep.error? = failure? r := by
  cases h with
  | sizeAt e => rfl
  | pages h => exact h.findSome?

/-- A page calls for one read, unless it fails before. -/
theorem PageTrace.calls {r : Except Error PageMapping} (h : PageTrace fd vaddr steps r) :
    (steps.filterMap LoadStep.call? = [] ∧ ∃ e, r = .error e) ∨
      ∃ a, steps.filterMap LoadStep.call? = [.readAt fd Page.size a] := by
  cases h with
  | allocate e => exact .inl ⟨rfl, e, rfl⟩
  | map frame e => exact .inl ⟨rfl, e, rfl⟩
  | fill h =>
    cases h with
    | checkFrame e => exact .inl ⟨rfl, e, rfl⟩
    | readAt e => exact .inr ⟨_, rfl⟩
    | done bytes => exact .inr ⟨_, rfl⟩

/-- The pages call for reads, at most one for each. -/
theorem calls_of_collected {address : Nat → UInt32} {ks : List Nat}
    {r : Except Error (List PageMapping)}
    (h : Collected (fun k => PageTrace fd (address k)) ks steps r) :
    (∀ call ∈ steps.filterMap LoadStep.call?, ∃ a, call = .readAt fd Page.size a) ∧
      (steps.filterMap LoadStep.call?).length ≤ ks.length := by
  induction h with
  | nil => exact ⟨nofun, Nat.le.refl⟩
  | stop h =>
    rcases h.calls with ⟨hcalls, -⟩ | ⟨a, hcalls⟩ <;> rw [hcalls]
    · exact ⟨nofun, Nat.zero_le _⟩
    · exact ⟨fun call hcall => ⟨a, List.mem_singleton.1 hcall⟩, Nat.succ_le_succ (Nat.zero_le _)⟩
  | @more k ks us vs b r h hrest ih =>
    obtain ⟨hreads, hlen⟩ := ih
    rw [List.filterMap_append, List.length_append, List.length_cons]
    rcases h.calls with ⟨-, e, he⟩ | ⟨a, hcalls⟩
    · cases he
    · rw [hcalls, List.length_singleton]
      refine ⟨fun call hcall => ?_, by omega⟩
      rcases List.mem_append.1 hcall with hcall | hcall
      · exact ⟨a, List.mem_singleton.1 hcall⟩
      · exact hreads call hcall

/-- Each read comes right after a frame was taken, mapped at the page that is read, and found in
RAM. The read that comes after `n` others is that of the page `first + n`. -/
def ReadsMapped (loader : Loader) (first : Nat) (steps : List LoadStep) : Prop :=
  ∀ (before after : List LoadStep) (fd len : Nat) (r : Except Error (List UInt8)),
    steps = before ++ .file (.readAt fd len r) :: after →
      ∃ (earlier : List LoadStep) (frame : UInt32), before = earlier ++
        [.allocate (.ok frame),
          .map (loader.base + UInt32.ofNat
            (Page.size * (first + (before.filterMap LoadStep.call?).length))) frame (.ok ()),
          .checkFrame frame (.ok ())]

/-- The frame was found before it is filled from the file. -/
theorem FillTrace.before_read {r : Except Error PageMapping} (h : FillTrace fd vaddr frame steps r)
    {before after : List LoadStep} {fd' len : Nat} {a : Except Error (List UInt8)}
    (hsteps : steps = before ++ .file (.readAt fd' len a) :: after) :
    before = [.checkFrame frame (.ok ())] := by
  -- the one read is the second step
  cases h with
  | checkFrame e =>
    rcases before with _ | ⟨_, _⟩ <;> simp at hsteps
  | readAt e =>
    rcases before with _ | ⟨_, _ | ⟨_, _⟩⟩
    · simp at hsteps
    · obtain ⟨rfl, -⟩ := List.cons.inj hsteps
      rfl
    · simp at hsteps
  | done bytes =>
    rcases before with _ | ⟨_, _ | ⟨_, _ | ⟨_, _⟩⟩⟩
    · simp at hsteps
    · obtain ⟨rfl, -⟩ := List.cons.inj hsteps
      rfl
    · simp at hsteps
    · simp at hsteps

/-- What comes before the one read of a page. -/
theorem PageTrace.before_read {r : Except Error PageMapping} (h : PageTrace fd vaddr steps r)
    {before after : List LoadStep} {fd' len : Nat} {a : Except Error (List UInt8)}
    (hsteps : steps = before ++ .file (.readAt fd' len a) :: after) : ∃ frame,
      before = [.allocate (.ok frame), .map vaddr frame (.ok ()), .checkFrame frame (.ok ())] := by
  cases h with
  | allocate e =>
    rcases before with _ | ⟨_, _⟩ <;> simp at hsteps
  | map frame e =>
    rcases before with _ | ⟨_, _ | ⟨_, _⟩⟩ <;> simp at hsteps
  | @fill frame steps r h =>
    rcases before with _ | ⟨_, _ | ⟨_, before⟩⟩
    · simp at hsteps
    · simp at hsteps
    · simp only [List.cons_append, List.cons.injEq] at hsteps
      obtain ⟨rfl, rfl, hsteps⟩ := hsteps
      exact ⟨frame, by rw [h.before_read hsteps]⟩

/-- A step that is no call on the store comes before the reads without counting among them. -/
theorem ReadsMapped.cons {first : Nat} {step : LoadStep} (h : ReadsMapped loader first steps)
    (hc : step.call? = none) : ReadsMapped loader first (step :: steps) := by
  rintro (_ | ⟨_, before⟩) after fd len r hsteps
  · obtain rfl := (List.cons.inj hsteps).1
    cases hc
  · obtain ⟨rfl, htail⟩ := List.cons.inj hsteps
    obtain ⟨earlier, frame, hbefore⟩ := h before after fd len r htail
    refine ⟨step :: earlier, frame, ?_⟩
    rw [List.filterMap_cons_none hc, List.cons_append, ← hbefore]

/-- The reads of a loop over the pages come after what was done for their pages. Induction on the
rounds: those before have made one read each. -/
theorem readsMapped_of_collected {n : Nat} : ∀ {first : Nat} {steps : List LoadStep}
    {r : Except Error (List PageMapping)},
    Collected (fun k => PageTrace fd (loader.base + UInt32.ofNat (Page.size * k)))
      (List.range' first n) steps r → ReadsMapped loader first steps := by
  induction n with
  | zero =>
    intro first steps r h before after fd' len a hsteps
    cases h
    simp at hsteps
  | succ n ih =>
    intro first steps r h before after fd' len a hsteps
    rw [List.range'_succ] at h
    cases h with
    | stop h =>
      obtain ⟨frame, rfl⟩ := h.before_read hsteps
      exact ⟨[], frame, rfl⟩
    | @more _ _ us vs page r h hrest =>
      rcases List.append_eq_append_iff.1 hsteps with ⟨later, rfl, hvs⟩ | ⟨tail, hus, hafter⟩
      · -- the read is one of a later page
        obtain ⟨earlier, frame, hlater⟩ := ih hrest later after fd' len a hvs
        refine ⟨us ++ earlier, frame, ?_⟩
        rcases h.calls with ⟨-, e, he⟩ | ⟨a', hcalls⟩
        · cases he
        · rw [List.filterMap_append, hcalls, List.length_append, List.length_singleton,
            ← Nat.add_assoc, List.append_assoc, ← hlater]
      · cases tail with
        | nil =>
          -- no page begins with a read
          obtain ⟨earlier, frame, hnone⟩ := ih hrest [] after fd' len a hafter.symm
          simp at hnone
        | cons step tail =>
          rw [List.cons_append] at hafter
          obtain ⟨rfl, -⟩ := List.cons.inj hafter
          obtain ⟨frame, rfl⟩ := h.before_read hus
          exact ⟨[], frame, rfl⟩

/-- The reads of all pages: one for each at most, in order, each after its page was given a frame. -/
theorem PagesTrace.reads {size : Nat} {r : Except Error Image}
    (h : PagesTrace loader fd size steps r) :
    (∀ call ∈ steps.filterMap LoadStep.call?, ∃ a, call = .readAt fd Page.size a) ∧
      (steps.filterMap LoadStep.call?).length ≤ Page.count size ∧ ReadsMapped loader 0 steps := by
  cases h with
  | checkRange e =>
    refine ⟨nofun, Nat.zero_le _, ?_⟩
    intro before after fd' len a hsteps
    rcases before with _ | ⟨_, _⟩ <;> simp at hsteps
  | pages h =>
    obtain ⟨hreads, hlen⟩ := calls_of_collected h
    rw [List.length_range] at hlen
    rw [List.range_eq_range'] at h
    exact ⟨hreads, hlen, (readsMapped_of_collected h).cons rfl⟩

end

end PagedMemory
