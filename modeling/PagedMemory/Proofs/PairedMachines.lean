import PagedMemory.Proofs.GuestCalls

/-!
# Machines that a guest does not tell apart

Two machines have the same tables but for marks, the same devices, and the same bytes in the pages
to which a guest is led. The guest gets the same answers from both, does the same to both, and so
does not tell them apart, however many calls it makes.

- `Paired.perform`: one call of each machine keeps them paired;
- `Paired.session`: so does any number of calls.
-/

namespace PagedMemory

namespace GuestCall

open Ram

variable {δ : Type} [Device δ] {T K : Nat → Prop} {ram : Ram} {regs : Registers} {m m' : Machine δ}

omit [Device δ] in
/-- The tables of both are those of `ram` but for marks, the bytes of the pages in `K` are the same,
and so are all devices. -/
structure Paired (T K : Nat → Prop) (ram : Ram) (m m' : Machine δ) : Prop where
  left : Steady T ram m
  right : Steady T ram m'
  byte : ∀ b, K (b / 4096) → m'.bus.ram.byte b = m.bus.ram.byte b
  table : m'.bus.table = m.bus.table

/-- The same access of both, on pages that they have in common. -/
theorem Paired.reach (h : Paired T K ram m m') (hK : ∀ n, K n → ¬ T n) {call : GuestCall}
    {p : UInt32} (hbytes : ∀ j, p.toNat ≤ j → j < p.toNat + call.len → K (j / 4096)) :
    SameReach call p m.bus m'.bus ∧
      Paired T K ram ((Machine.onBus (call.reach p)).run m).state
        ((Machine.onBus (call.reach p)).run m').state := by
  have hsize : m'.bus.ram.size = m.bus.ram.size := h.right.alike.size.trans h.left.alike.size.symm
  have hslice : m'.bus.ram.slice p.toNat call.len = m.bus.ram.slice p.toNat call.len :=
    slice_congr fun j hj hj' => h.byte j (hbytes j hj hj')
  have hsame := reach_congr call h.table hsize hslice
  have hout : ∀ j, p.toNat ≤ j → j < p.toNat + call.len → ¬ T (j / 4096) :=
    fun j hj hj' => hK _ (hbytes j hj hj')
  obtain ⟨hleft, -⟩ := h.left.reach hout
  obtain ⟨hright, -⟩ := h.right.reach hout
  refine ⟨hsame, hleft, hright, ?_, hsame.table⟩
  intro b hb
  rw [Machine.run_onBus, Machine.run_onBus]
  rcases hsame.ram with ⟨hr, hr'⟩ | ⟨bytes, hlen, hfit, hr, hr'⟩
  · rw [hr, hr']
    exact h.byte b hb
  · -- both store the same bytes at the same place
    have hfit : p.toNat + bytes.length ≤ m.bus.ram.size := hlen ▸ hfit
    have hfit' : p.toNat + bytes.length ≤ m'.bus.ram.size := hsize ▸ hfit
    rw [hr, hr', byte_store hfit, byte_store hfit', h.byte b hb]

/-- The call leads to pages in `K` at most. -/
def Leads (K : Nat → Prop) (ram : Ram) (regs : Registers) (call : GuestCall) : Prop :=
  ∀ p, ram.path regs.directory call.vaddr = .ok p → K (Page.number p)

/-- One call of each keeps two machines paired, and does not tell them apart. -/
theorem Paired.perform (h : Paired T K ram m m') (hK : ∀ n, K n → ¬ T n)
    (hs : TablesIn T ram regs.directory) (hp : regs.pagingEnabled = true) {call : GuestCall}
    (hcall : call.Leads K ram regs) :
    ((call.perform regs).run m').result = ((call.perform regs).run m).result ∧
    Event.traffic ((call.perform regs).run m').events =
      Event.traffic ((call.perform regs).run m).events ∧
    Paired T K ram ((call.perform regs).run m).state ((call.perform regs).run m').state := by
  rw [h.left.run_perform hs hp, h.right.run_perform hs hp]
  by_cases hw : Page.Within call.vaddr call.len
  · rw [if_pos hw, if_pos hw]
    cases hpath : ram.path regs.directory call.vaddr with
    | error e => exact ⟨rfl, rfl, h⟩
    | ok p =>
      obtain ⟨hleft, hbyte⟩ := h.left.afterWalk hs hpath
      obtain ⟨hright, hbyte'⟩ := h.right.afterWalk hs hpath
      have hafter : Paired T K ram (call.afterWalk regs m) (call.afterWalk regs m') := by
        refine ⟨hleft, hright, ?_, h.table⟩
        intro b hb
        rw [hbyte b (hK _ hb), hbyte' b (hK _ hb)]
        exact h.byte b hb
      obtain ⟨hsame, hpaired⟩ := hafter.reach hK fun j hj hj' => by
        rw [div_of_path hpath hw hj hj']
        exact hcall p hpath
      refine ⟨hsame.result, ?_, hpaired⟩
      -- the walks may report different entries, but that is no traffic
      rw [Outcome.events_after, Outcome.events_after, Event.traffic_append, Event.traffic_append]
      exact congrArg Event.traffic hsame.events
  · rw [if_neg hw, if_neg hw]
    exact ⟨rfl, rfl, h⟩

/-- Any number of calls keeps two machines paired. Induction on the calls. -/
theorem Paired.session (hK : ∀ n, K n → ¬ T n) (hs : TablesIn T ram regs.directory)
    (hp : regs.pagingEnabled = true) (calls : List GuestCall)
    (hcalls : ∀ call ∈ calls, call.Leads K ram regs) (h : Paired T K ram m m') :
    ((session regs calls).run m').result = ((session regs calls).run m).result ∧
    Event.traffic ((session regs calls).run m').events =
      Event.traffic ((session regs calls).run m).events ∧
    Paired T K ram ((session regs calls).run m).state ((session regs calls).run m').state := by
  induction calls generalizing m m' with
  | nil => exact ⟨rfl, rfl, h⟩
  | cons call calls ih =>
    obtain ⟨hr, ht, hnext⟩ := h.perform hK hs hp (hcalls call List.mem_cons_self)
    obtain ⟨hrs, hts, hlast⟩ := ih (fun c hc => hcalls c (List.mem_cons_of_mem call hc)) hnext
    rw [run_session_cons, run_session_cons]
    refine ⟨?_, ?_, hlast⟩
    · rw [hr, hrs]
    · rw [Event.traffic_append, Event.traffic_append, ht, hts]

end GuestCall

end PagedMemory
