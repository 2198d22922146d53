-- SUMMARY: What every pool of a depot counts and keeps behind any calls, and what every handle shows.
import CabinetBus.Proofs.Lending

/-!
# Accounts of a depot

Behind any calls, each pool of a depot is what the calls on it alone make of a new pool, and the
depot shows its open loans. A pool that only gets its own buffers back has out what it lent and did
not get back, so as long as that is within what it may keep, it makes no more buffers than were
ever out at once.
-/

namespace CabinetBus

namespace Depot

open PoolEvent

/-! ## Runs -/

theorem calls_concat (d : Depot) (calls : List DepotCall) (c : DepotCall) :
    d.calls (calls ++ [c]) = ((d.calls calls).call c).2 := by
  induction calls generalizing d with
  | nil => rfl
  | cons first later ih => exact ih (d.call first).2

/-- What happens to a pool at calls in order. -/
def eventsAt (d : Depot) (i : Nat) : List DepotCall → List PoolEvent
  | [] => []
  | c :: later => d.eventAt i c :: (d.call c).2.eventsAt i later

theorem eventsAt_concat (d : Depot) (i : Nat) (calls : List DepotCall) (c : DepotCall) :
    d.eventsAt i (calls ++ [c]) = d.eventsAt i calls ++ [(d.calls calls).eventAt i c] := by
  induction calls generalizing d with
  | nil => rfl
  | cons first later ih => exact congrArg (_ :: ·) (ih (d.call first).2)

theorem take_eventsAt (d : Depot) (i : Nat) (calls : List DepotCall) (count : Nat) :
    (d.eventsAt i calls).take count = d.eventsAt i (calls.take count) := by
  induction calls generalizing d count with
  | nil => rw [List.take_nil, eventsAt, List.take_nil]
  | cons first later ih =>
      cases count with
      | zero => rfl
      | succ count => exact congrArg (_ :: ·) (ih (d.call first).2 count)

/-- The beginnings of what happens to a pool are those of the calls. -/
theorem prefix_eventsAt_iff {d : Depot} {i : Nat} {calls : List DepotCall}
    {events : List PoolEvent} :
    events <+: d.eventsAt i calls ↔ ∃ front, front <+: calls ∧ events = d.eventsAt i front := by
  constructor
  · intro h
    refine ⟨calls.take events.length, List.take_prefix _ _, ?_⟩
    rw [← take_eventsAt]
    exact List.prefix_iff_eq_take.mp h
  · rintro ⟨front, hfront, rfl⟩
    rw [List.prefix_iff_eq_take.mp hfront, ← take_eventsAt]
    exact List.take_prefix _ _

/-- What holds of a depot of new pools behind calls. -/
structure Kept (maxFree : List Nat) (calls : List DepotCall) : Prop where
  length_pools : ((ofMaxFree maxFree).calls calls).pools.length = maxFree.length
  pools : ∀ i k, maxFree[i]? = some k → ((ofMaxFree maxFree).calls calls).pools[i]? =
    some ((BufferPool.new k).undergoAll ((ofMaxFree maxFree).eventsAt i calls))
  shows_loans : ((ofMaxFree maxFree).calls calls).Shows (loansOf maxFree.length calls)
  balanced : ((ofMaxFree maxFree).calls calls).Balanced
  lent_eq : ∀ i < maxFree.length, lent ((ofMaxFree maxFree).eventsAt i calls) =
    (loansOf maxFree.length calls).countP (·.lender = i)
  returned_eq : ∀ i < maxFree.length, returned ((ofMaxFree maxFree).eventsAt i calls) =
    (loansOf maxFree.length calls).countP (·.returnedTo = some i)

theorem isClean_undergoAll (k : Nat) (events : List PoolEvent) :
    ((BufferPool.new k).undergoAll events).IsClean :=
  BufferPool.undergoAll_induction (fun _ e h => h.undergo e) (List.forall_mem_nil _) events

theorem Kept.isClean {maxFree : List Nat} {calls : List DepotCall} (h : Kept maxFree calls) :
    ∀ p ∈ ((ofMaxFree maxFree).calls calls).pools, p.IsClean := by
  intro p hp
  obtain ⟨i, hi⟩ := List.getElem?_of_mem hp
  have hlt : i < maxFree.length := h.length_pools ▸ (List.getElem?_eq_some_iff.mp hi).1
  obtain rfl := Option.some.inj (hi.symm.trans (h.pools i _ (List.getElem?_eq_getElem hlt)))
  exact isClean_undergoAll _ _

theorem kept_nil (maxFree : List Nat) : Kept maxFree [] where
  length_pools := List.length_map _
  pools i k hk := by
    change (maxFree.map BufferPool.new)[i]? = _
    rw [List.getElem?_map, hk]
    rfl
  shows_loans := rfl
  balanced := by
    change ((maxFree.map BufferPool.new).map BufferPool.inUse).sum = 0
    rw [List.map_map]
    exact List.sum_map_zero
  lent_eq _ _ := rfl
  returned_eq _ _ := rfl

/-- One more call keeps all of it. -/
theorem Kept.concat {maxFree : List Nat} {calls : List DepotCall} (h : Kept maxFree calls)
    (c : DepotCall) : Kept maxFree (calls ++ [c]) := by
  have henters := enters_call h.shows_loans c
  rw [h.length_pools, ← calls_concat, ← loansOf_concat] at henters
  constructor
  · exact (length_pools_of_enters henters).trans h.length_pools
  · intro i k hk
    rw [eventsAt_concat, BufferPool.undergoAll_concat]
    exact pools_of_enters henters (h.pools i k hk)
  · exact h.shows_loans.of_enters h.isClean henters
  · exact h.balanced.of_enters henters
  · intro i hi
    rw [eventsAt_concat, lent_concat, h.lent_eq i hi]
    exact (countP_lender_of_enters henters (h.length_pools.symm ▸ hi)).symm
  · intro i hi
    rw [eventsAt_concat, returned_concat, h.returned_eq i hi]
    exact (countP_returnedTo_of_enters henters (h.length_pools.symm ▸ hi)).symm

theorem kept (maxFree : List Nat) (calls : List DepotCall) : Kept maxFree calls := by
  induction calls using List.reverseRecOn with
  | nil => exact kept_nil maxFree
  | append_singleton calls c ih => exact ih.concat c

/-! ## Pools that get their own buffers back -/

/-- What came back to a pool was lent by it. -/
def OwnOnly (i : Nat) (loans : List Loan) : Prop :=
  ∀ loan ∈ loans, loan.returnedTo = some i → loan.lender = i

/-- The buffers that a pool lent and that did not come back to it. -/
def outstandingFrom (i : Nat) (loans : List Loan) : Nat :=
  loans.countP fun loan => loan.lender = i ∧ loan.returnedTo ≠ some i

theorem countP_lender {i : Nat} {loans : List Loan} (h : OwnOnly i loans) :
    loans.countP (·.lender = i) =
      outstandingFrom i loans + loans.countP (·.returnedTo = some i) := by
  induction loans with
  | nil => rfl
  | cons loan later ih =>
      have hloan := h loan List.mem_cons_self
      have hlater := ih fun other hother => h other (List.mem_cons_of_mem loan hother)
      simp only [outstandingFrom, List.countP_cons] at hlater ⊢
      rw [hlater]
      by_cases hback : loan.returnedTo = some i
      · simp [hback, hloan hback, Nat.add_assoc]
      · by_cases hlender : loan.lender = i <;> simp [hback, hlender]
        omega

/-- A buffer that did not come back is still out, if it went to no other pool either. -/
theorem outstandingFrom_eq {i : Nat} {loans : List Loan}
    (h : ∀ loan ∈ loans, loan.lender = i → loan.returnedTo = none ∨ loan.returnedTo = some i) :
    outstandingFrom i loans = loans.countP fun loan => loan.lender = i ∧ loan.isOpen := by
  apply List.countP_congr
  intro loan hloan
  simp only [decide_eq_true_eq, Loan.isOpen, Option.isNone_iff_eq_none]
  refine and_congr_right fun hlender => ⟨fun hne => ?_, fun hnone => by simp [hnone]⟩
  exact (h loan hloan hlender).resolve_right hne

/-- At every time a pool only got its own buffers back, and had no more than a limit out. -/
def Confined (poolCount i limit : Nat) (calls : List DepotCall) : Prop :=
  ∀ front, front <+: calls →
    OwnOnly i (loansOf poolCount front) ∧ outstandingFrom i (loansOf poolCount front) ≤ limit

instance (i : Nat) (loans : List Loan) : Decidable (OwnOnly i loans) :=
  inferInstanceAs (Decidable (∀ loan ∈ loans, loan.returnedTo = some i → loan.lender = i))

instance (poolCount i limit : Nat) (calls : List DepotCall) :
    Decidable (Confined poolCount i limit calls) :=
  decidable_of_iff (∀ front ∈ calls.inits,
    OwnOnly i (loansOf poolCount front) ∧ outstandingFrom i (loansOf poolCount front) ≤ limit)
    (forall_congr' fun front => imp_congr_left (List.mem_inits front calls))

/-- How many buffers of a pool were out at some time. -/
def levelsOf (poolCount i : Nat) (calls : List DepotCall) : Set Nat :=
  {level | ∃ front, front <+: calls ∧ level = outstandingFrom i (loansOf poolCount front)}

section Confined

variable {maxFree : List Nat} {i limit : Nat} {calls : List DepotCall}

theorem outstanding_eventsAt (hi : i < maxFree.length) {front : List DepotCall}
    (hown : OwnOnly i (loansOf maxFree.length front)) :
    returned ((ofMaxFree maxFree).eventsAt i front) ≤ lent ((ofMaxFree maxFree).eventsAt i front) ∧
      outstanding ((ofMaxFree maxFree).eventsAt i front) =
        outstandingFrom i (loansOf maxFree.length front) := by
  have hkept := kept maxFree front
  have hlender := countP_lender hown
  rw [outstanding, hkept.lent_eq i hi, hkept.returned_eq i hi]
  omega

theorem Confined.contained (h : Confined maxFree.length i limit calls) (hi : i < maxFree.length)
    {p : BufferPool} (hp : p.maxFree = limit) :
    p.Contained ((ofMaxFree maxFree).eventsAt i calls) := by
  intro events hevents
  obtain ⟨front, hfront, rfl⟩ := prefix_eventsAt_iff.mp hevents
  obtain ⟨hown, hlimit⟩ := h front hfront
  obtain ⟨hback, hout⟩ := outstanding_eventsAt hi hown
  exact ⟨hback, hp ▸ hout ▸ hlimit⟩

theorem Confined.levels_eventsAt (h : Confined maxFree.length i limit calls)
    (hi : i < maxFree.length) :
    levels ((ofMaxFree maxFree).eventsAt i calls) = levelsOf maxFree.length i calls := by
  ext level
  constructor
  · rintro ⟨events, hevents, rfl⟩
    obtain ⟨front, hfront, rfl⟩ := prefix_eventsAt_iff.mp hevents
    exact ⟨front, hfront, (outstanding_eventsAt hi (h front hfront).1).2⟩
  · rintro ⟨front, hfront, rfl⟩
    exact ⟨_, prefix_eventsAt_iff.mpr ⟨front, hfront, rfl⟩,
      (outstanding_eventsAt hi (h front hfront).1).2.symm⟩

/-- Behind calls that confine it, a pool counts what is out without wrapping. -/
theorem Confined.toNat_inUse (h : Confined maxFree.length i (max 1 limit) calls)
    (hi : i < maxFree.length) (hlimit : max 1 limit < 2 ^ 64) :
    ((BufferPool.new limit).undergoAll ((ofMaxFree maxFree).eventsAt i calls)).inUse.toNat =
      outstanding ((ofMaxFree maxFree).eventsAt i calls) := by
  let events := (ofMaxFree maxFree).eventsAt i calls
  have hcontained : (BufferPool.new limit).Contained events := h.contained hi rfl
  obtain ⟨hback, hout⟩ := hcontained events (List.prefix_refl _)
  have hword : ((BufferPool.new limit).undergoAll events).inUse =
      UInt64.ofNat (outstanding events) := by
    rw [BufferPool.inUse_undergoAll, outstanding, UInt64.ofNat_sub hback]
    exact congrArg (· - _) (zero_add _)
  rw [hword]
  exact UInt64.toNat_ofNat_of_lt (lt_of_le_of_lt hout hlimit)

end Confined

/-! ## Handles -/

/-- A handle shows its own loan, and nothing once it was given back. -/
theorem Shows.content_eq {d : Depot} {loans : List Loan} (h : d.Shows loans) (handle : Nat) :
    (d.buffer? handle).map MessageBuffer.content = (loans[handle]?).bind Loan.shown? := by
  calc (d.buffer? handle).map MessageBuffer.content
      = ((d.handles[handle]?).map (Option.map MessageBuffer.content)).join := by
        rw [buffer?]
        cases d.handles[handle]? <;> rfl
    _ = ((loans[handle]?).map Loan.shown?).join := congrArg Option.join (h.getElem? handle)
    _ = (loans[handle]?).bind Loan.shown? := by cases loans[handle]? <;> rfl

theorem call_fill_of_le {d : Depot} {handle : Nat} {b : MessageBuffer}
    (h : d.buffer? handle = some b) {payload : Bytes}
    (hfits : payload.length ≤ MessageBuffer.capacity) :
    (d.call (.fill handle payload)).1 = .ok () ∧
      ((d.call (.fill handle payload)).2.buffer? handle).map MessageBuffer.content =
        some payload := by
  obtain ⟨filled, hfill⟩ := MessageBuffer.exists_fill hfits b
  have hlt : handle < d.handles.length := by
    by_contra hout
    rw [buffer?, List.getElem?_eq_none (Nat.le_of_not_lt hout)] at h
    cases h
  simp only [call, h, hfill]
  simp [buffer?, hlt, (MessageBuffer.content_fill hfill).1]

/-- A payload that does not fit is refused, and nothing changes. -/
theorem call_fill_of_gt {d : Depot} {handle : Nat} {b : MessageBuffer}
    (h : d.buffer? handle = some b) {payload : Bytes}
    (hlarge : MessageBuffer.capacity < payload.length) :
    d.call (.fill handle payload) =
      (.error (.payloadTooLarge payload.length MessageBuffer.capacity), d) := by
  have hfill : b.fill payload = .error (.payloadTooLarge payload.length MessageBuffer.capacity) :=
    if_pos hlarge
  simp only [call, h, hfill]

/-- An acquired buffer is the one that was idle for longest, with the bytes that it held, or a new
one if none was idle. It is empty. -/
theorem call_acquire {d : Depot} {i : Nat} {p : BufferPool} (hpool : d.pools[i]? = some p)
    (hclean : p.IsClean) :
    ∃ b next, (d.call (.acquire i)).2.buffer? d.handles.length = some b ∧
      (d.call (.acquire i)).2.pools[i]? = some next ∧ b.isEmpty ∧ b.content = [] ∧
      (p.free = b :: next.free ∨ p.free = [] ∧ next.free = [] ∧ b = .new) := by
  have hlt : i < d.pools.length := (List.getElem?_eq_some_iff.mp hpool).1
  have hempty := hclean.length_acquire
  refine ⟨p.acquire.1, p.acquire.2, ?_, ?_, ?_, ?_, p.acquire_cases⟩
  · simp only [call, hpool]
    simp [buffer?]
  · simp only [call, hpool]
    simp [hlt]
  · simp [MessageBuffer.isEmpty, hempty]
  · rw [MessageBuffer.content, hempty, List.take_zero]

/-- A buffer that is given back is gone, and is kept behind the idle ones if there is room. -/
theorem call_release {d : Depot} {handle i : Nat} {b : MessageBuffer} {p : BufferPool}
    (hbuffer : d.buffer? handle = some b) (hpool : d.pools[i]? = some p) :
    (d.call (.release handle i)).2.buffer? handle = none ∧
      ∃ next, (d.call (.release handle i)).2.pools[i]? = some next ∧
        next.free = if p.available < p.maxFree then p.free ++ [{ b with length := 0 }]
          else p.free := by
  have hlt : i < d.pools.length := (List.getElem?_eq_some_iff.mp hpool).1
  simp only [call, hbuffer, hpool]
  refine ⟨?_, p.release b, ?_, rfl⟩
  · by_cases hin : handle < d.handles.length <;> simp [buffer?, hin]
  · simp [hlt]

/-! ## All accounts -/

/-- The accounts of one pool of a depot behind calls. Of its own buffers, those that did not come
back to it are out, unless they went to another pool. -/
structure PoolAccount (maxFree : List Nat) (i k : Nat) (calls : List DepotCall)
    (pool : BufferPool) : Prop where
  inUse_eq : pool.inUse =
    UInt64.ofNat ((loansOf maxFree.length calls).countP (·.lender = i)) -
      UInt64.ofNat ((loansOf maxFree.length calls).countP (·.returnedTo = some i))
  available_le : pool.available ≤ max 1 k
  peak : Confined maxFree.length i (max 1 k) calls →
    IsGreatest (levelsOf maxFree.length i calls) (pool.inUse.toNat + pool.available)
  made_eq : Confined maxFree.length i (max 1 k) calls →
    (BufferPool.new k).made ((ofMaxFree maxFree).eventsAt i calls) =
      pool.inUse.toNat + pool.available
  letGo_eq : Confined maxFree.length i (max 1 k) calls →
    (BufferPool.new k).letGo ((ofMaxFree maxFree).eventsAt i calls) = 0
  out_eq : (∀ loan ∈ loansOf maxFree.length calls, loan.lender = i →
      loan.returnedTo = none ∨ loan.returnedTo = some i) →
    outstandingFrom i (loansOf maxFree.length calls) =
      (loansOf maxFree.length calls).countP fun loan => loan.lender = i ∧ loan.isOpen

theorem poolAccount {maxFree : List Nat} {i k : Nat} (hk : maxFree[i]? = some k)
    (hsize : k < 2 ^ 64) (calls : List DepotCall) :
    ∃ pool, ((ofMaxFree maxFree).calls calls).pools[i]? = some pool ∧
      PoolAccount maxFree i k calls pool := by
  have hi : i < maxFree.length := (List.getElem?_eq_some_iff.mp hk).1
  have hlimit : max 1 k < 2 ^ 64 := max_lt (by decide) hsize
  have hkept := kept maxFree calls
  refine ⟨_, hkept.pools i k hk, ?_⟩
  constructor
  case inUse_eq =>
    rw [BufferPool.inUse_undergoAll, hkept.lent_eq i hi, hkept.returned_eq i hi]
    exact congrArg (· - _) (zero_add _)
  case available_le =>
    have hroom := BufferPool.undergoAll_induction (motive := fun p => p.available ≤ p.maxFree)
      (fun p e h => BufferPool.available_undergo_le h e) (p := BufferPool.new k) (Nat.zero_le _)
      ((ofMaxFree maxFree).eventsAt i calls)
    rwa [BufferPool.maxFree_undergoAll] at hroom
  case peak =>
    intro h
    rw [h.toNat_inUse hi hlimit, ← h.levels_eventsAt hi]
    exact BufferPool.isGreatest_levels rfl (h.contained hi rfl)
  case made_eq =>
    intro h
    rw [h.toNat_inUse hi hlimit]
    exact BufferPool.made_eq rfl (h.contained hi rfl)
  case letGo_eq =>
    intro h
    exact BufferPool.letGo_eq_zero rfl (h.contained hi rfl)
  case out_eq => exact outstandingFrom_eq

/-- Behind any calls on any pools, every pool keeps its accounts, the counts of all of them are the
handles that are out, and every handle that is out shows what was last filled in on its own loan. A
pool lends the very buffer that has been idle for longest, empty but with its old bytes, and a new
one only if none is idle. It keeps a buffer that comes back, behind the others, unless it is full. A
fill that does not fit is refused and changes nothing. -/
theorem pools_account (maxFree : List UInt64) (calls : List DepotCall) :
    let sizes := maxFree.map UInt64.toNat
    let depot := (ofMaxFree sizes).calls calls
    let loans := loansOf sizes.length calls
    (∀ i k, maxFree[i]? = some k →
      ∃ pool, depot.pools[i]? = some pool ∧ PoolAccount sizes i k.toNat calls pool) ∧
    depot.Balanced ∧
    (∀ handle, (depot.buffer? handle).map MessageBuffer.content =
      (loans[handle]?).bind Loan.shown?) ∧
    (∀ i pool, depot.pools[i]? = some pool →
      ∃ b next, (depot.call (.acquire i)).2.buffer? depot.handles.length = some b ∧
        (depot.call (.acquire i)).2.pools[i]? = some next ∧ b.isEmpty ∧ b.content = [] ∧
        (pool.free = b :: next.free ∨ pool.free = [] ∧ next.free = [] ∧ b = .new)) ∧
    (∀ handle b i k pool, depot.buffer? handle = some b → maxFree[i]? = some k →
      depot.pools[i]? = some pool →
      (depot.call (.release handle i)).2.buffer? handle = none ∧
      ∃ next, (depot.call (.release handle i)).2.pools[i]? = some next ∧
        next.free = if pool.available < max 1 k.toNat then pool.free ++ [{ b with length := 0 }]
          else pool.free) ∧
    ∀ handle b payload, depot.buffer? handle = some b →
      (payload.length ≤ 128 → (depot.call (.fill handle payload)).1 = .ok () ∧
        ((depot.call (.fill handle payload)).2.buffer? handle).map MessageBuffer.content =
          some payload) ∧
      (128 < payload.length → depot.call (.fill handle payload) =
        (.error (.payloadTooLarge payload.length 128), depot)) := by
  intro sizes depot loans
  have hkept : Kept sizes calls := kept sizes calls
  have hsize {i : Nat} {k : UInt64} (hk : maxFree[i]? = some k) : sizes[i]? = some k.toNat := by
    rw [List.getElem?_map, hk]
    rfl
  refine ⟨fun i k hk => poolAccount (hsize hk) k.toNat_lt calls, hkept.balanced,
    hkept.shows_loans.content_eq, fun i pool hpool => ?_, ?_, ?_⟩
  · exact call_acquire hpool (hkept.isClean pool (List.mem_of_getElem? hpool))
  · intro handle b i k pool hbuffer hk hpool
    have hmaxFree : pool.maxFree = max 1 k.toNat := by
      obtain rfl := Option.some.inj (hpool.symm.trans (hkept.pools i _ (hsize hk)))
      exact BufferPool.maxFree_undergoAll _ _
    rw [← hmaxFree]
    exact call_release hbuffer hpool
  · intro handle b payload hbuffer
    exact ⟨call_fill_of_le hbuffer, call_fill_of_gt hbuffer⟩

/-- The buffer of the first loan comes back, is lent again with its old bytes, and shows none of
them. The second comes back to a pool that never lent, whose count wraps. -/
theorem pools_account_recycled :
    let early : List DepotCall := [.acquire 1, .fill 0 [7, 7, 7], .acquire 1]
    let calls := early ++ [.release 0 1, .release 1 0, .acquire 1, .fill 2 [9]]
    let old : MessageBuffer := ⟨[7, 7, 7] ++ Bytes.zeros 125, 0⟩
    let depot := (ofMaxFree [0, 2]).calls calls
    Confined 2 1 2 calls ∧ IsGreatest (levelsOf 2 1 calls) 2 ∧
      (∃ pool, depot.pools[0]? = some pool ∧ pool.inUse.toNat = 2 ^ 64 - 1) ∧
      (∃ next, (((ofMaxFree [0, 2]).calls early).call (.release 0 1)).2.pools[1]? = some next ∧
        next.free = [old]) ∧
      (((ofMaxFree [0, 2]).calls (early ++ [.release 0 1])).call (.acquire 1)).2.buffer? 2 =
        some old ∧
      (depot.buffer? 2).map MessageBuffer.content = some [9] ∧
      depot.call (.fill 2 (Bytes.zeros 129)) = (.error (.payloadTooLarge 129 128), depot) := by
  intro early calls old depot
  obtain ⟨hpools, -, hshown, -, -, hfill⟩ := pools_account [0, 2] calls
  obtain ⟨first, hfirst, hother⟩ := hpools 0 0 rfl
  obtain ⟨second, hsecond, howner⟩ := hpools 1 2 rfl
  have hwraps : first.inUse.toNat = 2 ^ 64 - 1 := by
    rw [hother.inUse_eq]
    rfl
  have hconfined : Confined 2 1 2 calls := by decide
  have htotal : (depot.pools[1]?).map (fun pool => pool.inUse.toNat + pool.available) = some 2 := by
    decide
  have hpeak := howner.peak hconfined
  rw [Option.some.inj ((congrArg (Option.map _) hsecond).symm.trans htotal)] at hpeak
  have hkept : ∃ next, (((ofMaxFree [0, 2]).calls early).call (.release 0 1)).2.pools[1]? =
      some next ∧ next.free = [old] := by
    obtain ⟨-, -, -, -, hrelease, -⟩ := pools_account [0, 2] early
    exact (hrelease 0 ⟨old.data, 3⟩ 1 2 ⟨[], 2, 2⟩ (by decide) rfl (by decide)).2
  have hlent : (((ofMaxFree [0, 2]).calls (early ++ [.release 0 1])).call
      (.acquire 1)).2.buffer? 2 = some old := by
    obtain ⟨-, -, -, hacquire, -⟩ := pools_account [0, 2] (early ++ [.release 0 1])
    obtain ⟨b, next, hb, -, -, -, holdest | ⟨hnone, -⟩⟩ := hacquire 1 ⟨[old], 2, 1⟩ (by decide)
    · rw [(List.cons.inj holdest).1]
      exact hb
    · cases hnone
  have hbuffer : (depot.buffer? 2).isSome := by decide
  obtain ⟨b, hb⟩ := Option.isSome_iff_exists.mp hbuffer
  have hlength : (Bytes.zeros 129).length = 129 := Bytes.length_zeros _
  have hrefused := (hfill 2 b (Bytes.zeros 129) hb).2 (by rw [hlength]; decide)
  rw [hlength] at hrefused
  exact ⟨hconfined, hpeak, ⟨first, hfirst, hwraps⟩, hkept, hlent, hshown 2, hrefused⟩

end Depot

end CabinetBus
