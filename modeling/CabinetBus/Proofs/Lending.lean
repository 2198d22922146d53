-- SUMMARY: Several pools and the buffers handed out: whose they are, what they show, and how the counts add up.
import Mathlib.Algebra.BigOperators.Group.List.Basic
import CabinetBus.Proofs.Outbound
import CabinetBus.Proofs.PoolRuns

/-!
# Lending among pools

Every buffer handed out is a loan: some pool lent it, payloads were filled into it, and it may have
been given back, be it to another pool. The loans are told by the calls alone, without any buffer.
A buffer shows what its own loan tells, whatever it held on earlier loans. Each pool undergoes the
calls that are made on it, so what is known of one pool holds of every pool in a depot.
-/

namespace CabinetBus

/-! ## Loans -/

/-- A buffer handed out: the pool that lent it, the payloads filled in since then, and the pool it
was given back to. -/
structure Loan where
  lender : Nat
  fills : List Bytes
  returnedTo : Option Nat
  deriving DecidableEq, Repr

namespace Loan

def isOpen (loan : Loan) : Bool := loan.returnedTo.isNone

/-- The payload of the last fill, while the buffer is out. -/
def shown? (loan : Loan) : Option Bytes :=
  if loan.isOpen then some (loan.fills.getLastD []) else none

/-- Fills a payload in, if the buffer is out and can hold it. -/
def fill (payload : Bytes) (loan : Loan) : Loan :=
  if loan.isOpen ∧ payload.length ≤ MessageBuffer.capacity then
    { loan with fills := loan.fills ++ [payload] }
  else loan

/-- Gives the buffer back, if it is out. -/
def giveBack (pool : Nat) (loan : Loan) : Loan :=
  if loan.isOpen then { loan with returnedTo := some pool } else loan

theorem isOpen_of_none {loan : Loan} (h : loan.returnedTo = none) : loan.isOpen = true :=
  Option.isNone_iff_eq_none.mpr h

theorem fill_of_open {loan : Loan} (h : loan.returnedTo = none) {payload : Bytes}
    (hfits : payload.length ≤ MessageBuffer.capacity) :
    loan.fill payload = { loan with fills := loan.fills ++ [payload] } :=
  if_pos ⟨isOpen_of_none h, hfits⟩

theorem fill_of_large {payload : Bytes} (h : ¬ payload.length ≤ MessageBuffer.capacity)
    (loan : Loan) : loan.fill payload = loan := if_neg fun hboth => h hboth.2

theorem fill_of_closed {loan : Loan} (h : loan.isOpen = false) (payload : Bytes) :
    loan.fill payload = loan := if_neg fun hboth => Bool.false_ne_true (h.symm.trans hboth.1)

theorem giveBack_of_open {loan : Loan} (h : loan.returnedTo = none) (pool : Nat) :
    loan.giveBack pool = { loan with returnedTo := some pool } := if_pos (isOpen_of_none h)

theorem giveBack_of_closed {loan : Loan} (h : loan.isOpen = false) (pool : Nat) :
    loan.giveBack pool = loan := if_neg fun hopen => Bool.false_ne_true (h.symm.trans hopen)

end Loan

/-- The loans behind a call on so many pools. -/
def DepotCall.book (poolCount : Nat) (loans : List Loan) : DepotCall → List Loan
  | .acquire pool => if pool < poolCount then loans ++ [⟨pool, [], none⟩] else loans
  | .fill handle payload => loans.modify handle (Loan.fill payload)
  | .inspect _ => loans
  | .release handle pool =>
      if pool < poolCount then loans.modify handle (Loan.giveBack pool) else loans

/-- The loans that calls on so many pools amount to, by order of acquisition. -/
def loansOf (poolCount : Nat) (calls : List DepotCall) : List Loan :=
  calls.foldl (DepotCall.book poolCount) []

theorem loansOf_concat (poolCount : Nat) (calls : List DepotCall) (c : DepotCall) :
    loansOf poolCount (calls ++ [c]) = c.book poolCount (loansOf poolCount calls) := by
  rw [loansOf, List.foldl_append]
  rfl

theorem modify_eq_set {loans : List Loan} {handle : Nat} {loan : Loan}
    (h : loans[handle]? = some loan) (f : Loan → Loan) :
    loans.modify handle f = loans.set handle (f loan) := by
  obtain ⟨hlt, rfl⟩ := List.getElem?_eq_some_iff.mp h
  ext1 other
  rw [List.getElem?_modify, List.getElem?_set]
  by_cases heq : handle = other
  · subst heq
    simp [hlt]
  · simp [heq]

theorem modify_eq_self {loans : List Loan} {handle : Nat} {f : Loan → Loan}
    (h : ∀ loan, loans[handle]? = some loan → f loan = loan) : loans.modify handle f = loans := by
  cases hloan : loans[handle]? with
  | none => exact List.modify_eq_self (List.getElem?_eq_none_iff.mp hloan)
  | some loan =>
      rw [modify_eq_set hloan, h loan hloan]
      obtain ⟨hlt, rfl⟩ := List.getElem?_eq_some_iff.mp hloan
      exact List.set_getElem_self hlt

/-- Setting one element changes a count by that element alone. -/
theorem countP_set_add {α : Type} {l : List α} {i : Nat} {a : α} (h : l[i]? = some a)
    (f : α → Bool) (b : α) :
    (l.set i b).countP f + (if f a then 1 else 0) = l.countP f + if f b then 1 else 0 := by
  obtain ⟨hlt, rfl⟩ := List.getElem?_eq_some_iff.mp h
  have hpos : f l[i] = true → 0 < l.countP f := fun hf =>
    List.countP_pos_iff.mpr ⟨_, List.getElem_mem hlt, hf⟩
  rw [List.countP_set hlt]
  split
  · next hf =>
      have := hpos hf
      omega
  · omega

namespace Depot

/-! ## One call -/

/-- What happens to a pool at a call. -/
def eventAt (d : Depot) (i : Nat) : DepotCall → PoolEvent
  | .acquire pool => if pool = i then .lends else .rests
  | .release handle pool =>
      match d.buffer? handle with
      | some b => if pool = i then .takesBack b else .rests
      | none => .rests
  | .fill .. | .inspect _ => .rests

/-- The depot shows the open loans, each with what was last filled in. -/
def Shows (d : Depot) (loans : List Loan) : Prop :=
  d.handles.map (Option.map MessageBuffer.content) = loans.map Loan.shown?

theorem Shows.getElem? {d : Depot} {loans : List Loan} (h : d.Shows loans) (handle : Nat) :
    (d.handles[handle]?).map (Option.map MessageBuffer.content) =
      (loans[handle]?).map Loan.shown? := by
  rw [← List.getElem?_map, ← List.getElem?_map]
  exact congrArg (·[handle]?) h

/-- A call on a depot, beside what it makes of the loans. -/
inductive Enters (d : Depot) (loans : List Loan) : DepotCall → Depot → List Loan → Prop
  | acquire {pool : Nat} {p : BufferPool} (hpool : d.pools[pool]? = some p) :
      Enters d loans (.acquire pool)
        ⟨d.pools.set pool p.acquire.2, d.handles ++ [some p.acquire.1]⟩
        (loans ++ [⟨pool, [], none⟩])
  | fill {handle : Nat} {b filled : MessageBuffer} {loan : Loan} {payload : Bytes}
      (hbuffer : d.handles[handle]? = some (some b)) (hloan : loans[handle]? = some loan)
      (hopen : loan.returnedTo = none) (hfill : b.fill payload = .ok filled) :
      Enters d loans (.fill handle payload)
        { d with handles := d.handles.set handle (some filled) }
        (loans.set handle { loan with fills := loan.fills ++ [payload] })
  | release {handle pool : Nat} {b : MessageBuffer} {p : BufferPool} {loan : Loan}
      (hbuffer : d.handles[handle]? = some (some b)) (hloan : loans[handle]? = some loan)
      (hopen : loan.returnedTo = none) (hpool : d.pools[pool]? = some p) :
      Enters d loans (.release handle pool)
        ⟨d.pools.set pool (p.release b), d.handles.set handle none⟩
        (loans.set handle { loan with returnedTo := some pool })
  | rest {c : DepotCall} (hrest : ∀ i < d.pools.length, d.eventAt i c = .rests) :
      Enters d loans c d loans

/-- A handle that is out has an open loan, and any other has none. -/
theorem Shows.handle_cases {d : Depot} {loans : List Loan} (h : d.Shows loans) (handle : Nat) :
    (∃ b loan, d.handles[handle]? = some (some b) ∧ loans[handle]? = some loan ∧
      loan.returnedTo = none) ∨
    (d.buffer? handle = none ∧ ∀ loan, loans[handle]? = some loan → loan.isOpen = false) := by
  have hsame := h.getElem? handle
  cases hhandle : d.handles[handle]? with
  | none =>
      right
      rw [hhandle] at hsame
      refine ⟨by rw [buffer?, hhandle]; rfl, fun loan hloan => ?_⟩
      rw [hloan] at hsame
      cases hsame
  | some slot =>
      cases hloan : loans[handle]? with
      | none =>
          rw [hhandle, hloan] at hsame
          cases hsame
      | some loan =>
          rw [hhandle, hloan] at hsame
          have hshown : slot.map MessageBuffer.content = loan.shown? := Option.some.inj hsame
          cases slot with
          | none =>
              right
              refine ⟨by rw [buffer?, hhandle]; rfl, fun other hother => ?_⟩
              obtain rfl := Option.some.inj hother
              simpa [Loan.shown?] using hshown.symm
          | some b =>
              left
              have hopen : loan.isOpen = true := by
                by_contra hclosed
                simp [Loan.shown?, hclosed] at hshown
              exact ⟨b, loan, rfl, rfl, Option.isNone_iff_eq_none.mp hopen⟩

/-- What a call does to a depot, it does to the loans that the depot shows. -/
theorem enters_call {d : Depot} {loans : List Loan} (h : d.Shows loans) (c : DepotCall) :
    d.Enters loans c (d.call c).2 (c.book d.pools.length loans) := by
  have hother {pool i : Nat} (hpool : d.pools[pool]? = none) (hi : i < d.pools.length) :
      pool ≠ i := by
    rintro rfl
    exact Nat.not_lt.mpr (List.getElem?_eq_none_iff.mp hpool) hi
  cases c with
  | inspect handle => exact .rest fun _ _ => rfl
  | acquire pool =>
      cases hpool : d.pools[pool]? with
      | none =>
          have hout : ¬ pool < d.pools.length := Nat.not_lt.mpr (List.getElem?_eq_none_iff.mp hpool)
          simp only [call, hpool, DepotCall.book, if_neg hout]
          exact .rest fun i hi => if_neg (hother hpool hi)
      | some p =>
          have hin : pool < d.pools.length := (List.getElem?_eq_some_iff.mp hpool).1
          simp only [call, hpool, DepotCall.book, if_pos hin]
          exact .acquire hpool
  | fill handle payload =>
      rcases h.handle_cases handle with ⟨b, loan, hhandle, hloan, hopen⟩ | ⟨hbuffer, hclosed⟩
      · have hbuffer : d.buffer? handle = some b := by rw [buffer?, hhandle]; rfl
        simp only [call, hbuffer, DepotCall.book]
        by_cases hfits : payload.length ≤ MessageBuffer.capacity
        · obtain ⟨filled, hfill⟩ := MessageBuffer.exists_fill hfits b
          rw [hfill, modify_eq_set hloan, Loan.fill_of_open hopen hfits]
          exact .fill hhandle hloan hopen hfill
        · have hfill : b.fill payload =
              .error (.payloadTooLarge payload.length MessageBuffer.capacity) :=
            if_pos (Nat.lt_of_not_le hfits)
          rw [hfill, modify_eq_self fun loan _ => loan.fill_of_large hfits]
          exact .rest fun _ _ => rfl
      · simp only [call, hbuffer, DepotCall.book]
        rw [modify_eq_self fun loan hloan => Loan.fill_of_closed (hclosed loan hloan) payload]
        exact .rest fun _ _ => rfl
  | release handle pool =>
      rcases h.handle_cases handle with ⟨b, loan, hhandle, hloan, hopen⟩ | ⟨hbuffer, hclosed⟩
      · have hbuffer : d.buffer? handle = some b := by rw [buffer?, hhandle]; rfl
        cases hpool : d.pools[pool]? with
        | none =>
            have hout : ¬ pool < d.pools.length :=
              Nat.not_lt.mpr (List.getElem?_eq_none_iff.mp hpool)
            simp only [call, hbuffer, hpool, DepotCall.book, if_neg hout]
            refine .rest fun i hi => ?_
            rw [eventAt, hbuffer]
            exact if_neg (hother hpool hi)
        | some p =>
            have hin : pool < d.pools.length := (List.getElem?_eq_some_iff.mp hpool).1
            simp only [call, hbuffer, hpool, DepotCall.book, if_pos hin]
            rw [modify_eq_set hloan, Loan.giveBack_of_open hopen]
            exact .release hhandle hloan hopen hpool
      · simp only [call, hbuffer, DepotCall.book]
        rw [modify_eq_self fun loan hloan => Loan.giveBack_of_closed (hclosed loan hloan) pool,
          ite_self]
        refine .rest fun i _ => ?_
        rw [eventAt, hbuffer]

section Step

variable {d next : Depot} {loans more : List Loan} {c : DepotCall}

theorem pools_of_enters (h : d.Enters loans c next more) {i : Nat} {p : BufferPool}
    (hi : d.pools[i]? = some p) : next.pools[i]? = some (p.undergo (d.eventAt i c)) := by
  have hlt : i < d.pools.length := (List.getElem?_eq_some_iff.mp hi).1
  cases h with
  | @acquire pool q hpool =>
      by_cases heq : pool = i
      · subst heq
        obtain rfl := Option.some.inj (hpool.symm.trans hi)
        simp [eventAt, BufferPool.undergo, hlt]
      · simp [eventAt, BufferPool.undergo, heq, hi]
  | fill => exact hi
  | @release handle pool b q loan hbuffer _ _ hpool =>
      have hout : d.buffer? handle = some b := by rw [buffer?, hbuffer]; rfl
      by_cases heq : pool = i
      · subst heq
        obtain rfl := Option.some.inj (hpool.symm.trans hi)
        simp [eventAt, BufferPool.undergo, hout, hlt]
      · simp [eventAt, BufferPool.undergo, hout, heq, hi]
  | rest hrest => simpa [hrest i hlt, BufferPool.undergo] using hi

theorem length_pools_of_enters (h : d.Enters loans c next more) :
    next.pools.length = d.pools.length := by
  cases h with
  | acquire | release => exact List.length_set
  | fill | rest => rfl

/-- Only empty buffers are lent, so a depot goes on showing its loans. -/
theorem Shows.of_enters (h : d.Shows loans) (hclean : ∀ p ∈ d.pools, p.IsClean)
    (henters : d.Enters loans c next more) : next.Shows more := by
  cases henters with
  | rest => exact h
  | @acquire pool p hpool =>
      have hempty := (hclean p (List.mem_of_getElem? hpool)).length_acquire
      have hshown : p.acquire.1.content = [] := by
        rw [MessageBuffer.content, hempty, List.take_zero]
      rw [Shows, List.map_append, List.map_append, h]
      simp [hshown, Loan.shown?, Loan.isOpen]
  | @fill handle b filled loan payload hbuffer hloan hopen hfill =>
      have hshown : Loan.shown? { loan with fills := loan.fills ++ [payload] } = some payload := by
        simp [Loan.shown?, Loan.isOpen, hopen]
      rw [Shows, List.map_set, List.map_set, h, hshown, Option.map_some,
        (MessageBuffer.content_fill hfill).1]
  | release hbuffer hloan hopen hpool =>
      rw [Shows, List.map_set, List.map_set, h]
      simp [Loan.shown?, Loan.isOpen]

/-- The counts of all pools together are the handles that are out. -/
def Balanced (d : Depot) : Prop :=
  (d.pools.map BufferPool.inUse).sum = UInt64.ofNat (d.handles.countP Option.isSome)

theorem Balanced.of_enters (h : d.Balanced) (henters : d.Enters loans c next more) :
    next.Balanced := by
  have hsum {pool : Nat} {p : BufferPool} (hpool : d.pools[pool]? = some p) (q : BufferPool) :
      ((d.pools.set pool q).map BufferPool.inUse).sum =
        (d.pools.map BufferPool.inUse).sum - p.inUse + q.inUse := by
    obtain ⟨hlt, rfl⟩ := List.getElem?_eq_some_iff.mp hpool
    rw [List.map_set, List.sum_set', dif_pos (by simpa using hlt), List.getElem_map]
    abel
  cases henters with
  | rest => exact h
  | @acquire pool p hpool =>
      rw [Balanced, hsum hpool, BufferPool.inUse_acquire, h, List.countP_append,
        List.countP_singleton, UInt64.ofNat_add]
      change _ = _ + 1
      abel
  | @fill handle b filled loan payload hbuffer hloan hopen hfill =>
      have hcount := countP_set_add hbuffer Option.isSome (some filled)
      rw [Balanced, Nat.add_right_cancel hcount]
      exact h
  | release hbuffer hloan hopen hpool =>
      have hcount := countP_set_add hbuffer Option.isSome none
      rw [Balanced] at h ⊢
      rw [hsum hpool, BufferPool.inUse_release, h, ← Nat.add_zero (d.handles.countP _)]
      rw [← show _ = d.handles.countP Option.isSome + 0 from hcount, UInt64.ofNat_add]
      change _ + 1 - _ + _ = _
      abel

/-- The loans of a pool grow with what it lends. -/
theorem countP_lender_of_enters (h : d.Enters loans c next more) {i : Nat}
    (hi : i < d.pools.length) : more.countP (·.lender = i) =
      loans.countP (·.lender = i) + if (d.eventAt i c).isLoan then 1 else 0 := by
  cases h with
  | rest hrest => simp [hrest i hi, PoolEvent.isLoan]
  | @acquire pool p hpool =>
      rw [List.countP_append, List.countP_singleton]
      by_cases heq : pool = i <;> simp [eventAt, heq, PoolEvent.isLoan]
  | fill hbuffer hloan hopen hfill =>
      exact Nat.add_right_cancel (countP_set_add hloan (·.lender = i) _)
  | @release handle pool b p loan hbuffer hloan hopen hpool =>
      have hout : d.buffer? handle = some b := by rw [buffer?, hbuffer]; rfl
      have hcount := countP_set_add hloan (·.lender = i) { loan with returnedTo := some pool }
      by_cases heq : pool = i <;> simpa [eventAt, hout, heq, PoolEvent.isLoan] using hcount

/-- The loans given back to a pool grow with what it takes back. -/
theorem countP_returnedTo_of_enters (h : d.Enters loans c next more) {i : Nat}
    (hi : i < d.pools.length) : more.countP (·.returnedTo = some i) =
      loans.countP (·.returnedTo = some i) + if (d.eventAt i c).isReturn then 1 else 0 := by
  cases h with
  | rest hrest => simp [hrest i hi, PoolEvent.isReturn]
  | @acquire pool p hpool =>
      rw [List.countP_append, List.countP_singleton]
      by_cases heq : pool = i <;> simp [eventAt, heq, PoolEvent.isReturn]
  | fill hbuffer hloan hopen hfill =>
      exact Nat.add_right_cancel (countP_set_add hloan (·.returnedTo = some i) _)
  | @release handle pool b p loan hbuffer hloan hopen hpool =>
      have hout : d.buffer? handle = some b := by rw [buffer?, hbuffer]; rfl
      have hcount :=
        countP_set_add hloan (·.returnedTo = some i) { loan with returnedTo := some pool }
      by_cases heq : pool = i <;>
        simpa [eventAt, hout, heq, hopen, PoolEvent.isReturn] using hcount

end Step

end Depot

end CabinetBus
