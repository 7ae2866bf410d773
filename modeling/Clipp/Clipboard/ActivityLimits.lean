import Clipp.Clipboard.ActivityCalls
import Mathlib.Algebra.Order.BigOperators.Group.List

open Foundation

namespace ClippProof.Clipboard

open ClippModel.Persistence ClippModel.Clipboard ClippModel.Clipboard.ClipboardActivityStore

variable {s t : ClipboardActivityStore} {e : Event} {p : ClipboardPayload} {items : List ActivityItem}
  {limits : ActivityLimits}

def totalSize (items : List ActivityItem) : Nat := (items.map estimateItemBytes).sum

theorem totalSize_sublist {fewer all : List ActivityItem} (sub : fewer.Sublist all) :
    totalSize fewer ≤ totalSize all := (sub.map _).sum_le_sum (fun _ _ => Nat.zero_le _)

theorem totalSize_perm {left right : List ActivityItem} (perm : left.Perm right) :
    totalSize left = totalSize right := (perm.map _).sum_nat

/-- Below the largest 64-bit number the saturating sum is the sum. -/
theorem totalBytes_eq (fits : totalSize items < 2 ^ 64) : totalBytes items = totalSize items := by
  have sum : ∀ (items : List ActivityItem) (start : Nat), start + totalSize items < 2 ^ 64 →
      items.foldl (fun total item =>
        if total > 2 ^ 64 - 1 - estimateItemBytes item then 2 ^ 64 - 1 else total + estimateItemBytes item) start =
      start + totalSize items := by
    intro items
    induction items with
    | nil => exact fun start _ => rfl
    | cons first rest ih =>
      intro start small
      have size : totalSize (first :: rest) = estimateItemBytes first + totalSize rest := rfl
      rw [size] at small ⊢
      have below : ¬ start > 2 ^ 64 - 1 - estimateItemBytes first := by omega
      rw [List.foldl_cons, if_neg below, ih _ (by omega)]
      omega
  have whole := sum items 0 (by omega)
  rwa [Nat.zero_add] at whole

theorem totalBytes_le (each : ∀ item ∈ items, estimateItemBytes item ≤ 2 ^ 64 - 1) : totalBytes items ≤ 2 ^ 64 - 1 := by
  apply List.foldlRecOn (motive := fun total => total ≤ 2 ^ 64 - 1) items _ (Nat.zero_le _)
  intro total small item member
  have one := each item member
  split_ifs with above
  · exact le_rfl
  · omega

theorem dropOverflow_within (memoryLimitBytes : Nat) (items : List ActivityItem) :
    totalSize (dropOverflow memoryLimitBytes (totalSize items) items) ≤ memoryLimitBytes ∨
      (dropOverflow memoryLimitBytes (totalSize items) items).length ≤ 1 := by
  generalize sum : totalSize items = total
  fun_induction dropOverflow memoryLimitBytes total items with
  | case1 total item next rest above ih =>
    have size : totalSize (item :: next :: rest) = estimateItemBytes item + totalSize (next :: rest) := rfl
    apply ih
    omega
  | case2 total item next rest notAbove => exact .inl (by omega)
  | case3 total items short =>
    right
    cases items with
    | nil => exact Nat.zero_le 1
    | cons item rest =>
      cases rest with
      | nil => exact le_rfl
      | cons next rest => exact absurd rfl (short item next rest)

theorem dropOverflow_of_le {memoryLimitBytes total : Nat} (small : total ≤ memoryLimitBytes) (items : List ActivityItem) :
    dropOverflow memoryLimitBytes total items = items := by
  unfold dropOverflow
  split
  · exact if_neg (not_lt.mpr small)
  · rfl

theorem applyLimits_of_roomy {now : Int} (young : ∀ item ∈ items, expired limits now item = false)
    (few : limits.maxItems = 0 ∨ items.length ≤ limits.maxItems.toNat)
    (small : limits.memoryLimitBytes = 0 ∨ items.length ≤ 1 ∨ totalBytes items ≤ limits.memoryLimitBytes.toNat) :
    applyLimits limits now items = (items, []) := by
  have all : items.filter (fun item => !expired limits now item) = items :=
    List.filter_eq_self.mpr (fun item member => by rw [young item member]; rfl)
  have none : items.filter (expired limits now) = [] :=
    List.filter_eq_nil_iff.mpr (fun item member => by rw [young item member]; exact Bool.false_ne_true)
  have no : surplus limits items = 0 := by
    unfold surplus
    split_ifs with unlimited
    · rfl
    · have counted := few.resolve_left unlimited
      omega
  have kept : withinMemory limits items = items := by
    unfold withinMemory
    split_ifs with unlimited
    · rfl
    · rcases small.resolve_left unlimited with single | within
      · match items, single with
        | [], _ => rfl
        | [_], _ => rfl
      · exact dropOverflow_of_le within items
  simp only [applyLimits, all, none, no, List.drop_zero, List.take_zero, kept, Nat.sub_self, List.append_nil,
    List.map_nil]

theorem withinMemory_fits (limited : limits.memoryLimitBytes ≠ 0) (fits : totalSize items < 2 ^ 64) :
    totalSize (withinMemory limits items) ≤ limits.memoryLimitBytes.toNat ∨ (withinMemory limits items).length ≤ 1 := by
  rw [withinMemory, if_neg limited, totalBytes_eq fits]
  exact dropOverflow_within _ items

theorem applyLimits_counted (limited : limits.maxItems ≠ 0) (now : Int) (items : List ActivityItem) :
    (applyLimits limits now items).1.length ≤ limits.maxItems.toNat := by
  have kept := (withinMemory_suffix limits ((items.filter (fun item => !expired limits now item)).drop
    (surplus limits (items.filter (fun item => !expired limits now item))))).length_le
  rw [List.length_drop, surplus, if_neg limited] at kept
  show (withinMemory limits _).length ≤ _
  rw [surplus, if_neg limited]
  omega

theorem applyLimits_fits (limited : limits.memoryLimitBytes ≠ 0) (now : Int) (fits : totalSize items < 2 ^ 64) :
    totalSize (applyLimits limits now items).1 ≤ limits.memoryLimitBytes.toNat ∨
      (applyLimits limits now items).1.length ≤ 1 := by
  apply withinMemory_fits limited
  apply lt_of_le_of_lt _ fits
  exact totalSize_sublist ((List.drop_sublist _ _).trans List.filter_sublist)

/-- The bytes a call brings in. -/
def broughtIn : Call → Nat
  | .add p => 256 + p.encoded.length
  | _ => 0

/-- A call either leaves the limits and only takes items out, or ends with applying the limits. -/
inductive Trimmed (s : ClipboardActivityStore) (e : Event) (t : ClipboardActivityStore) : Prop where
  | fewer (limits : t.limits = s.limits) (rest : t.items.Sublist s.items)
  | applied (now : Int) (all : List ActivityItem) (size : totalSize all ≤ totalSize s.items + broughtIn e.call)
      (kept : t.items = (applyLimits t.limits now all).1)

theorem addItem_trimmed (call : e.call = .add p) : Trimmed s e (s.addItem e.clock p).store := by
  by_cases recorded : Recorded s p
  · rw [addItem_recorded recorded]
    exact .fewer rfl (List.Sublist.refl _)
  · have stored : p.meta_.formatId ≠ clippFormatNone := fun none => recorded (.inl none)
    have placed : ∀ (header : ClipboardActivityItemHeader) (others : List ActivityItem), others.Sublist s.items →
        totalSize (insertItem { header := header, payload := p } others) ≤ totalSize s.items + broughtIn e.call := by
      intro header others sub
      have size : totalSize ({ header := header, payload := p } :: others) = 256 + p.encoded.length + totalSize others :=
        rfl
      have less := totalSize_sublist sub
      rw [totalSize_perm (insertItem_perm _ _), size, call]
      dsimp only [broughtIn]
      omega
    cases found : existing s.items p with
    | none =>
      simp only [addItem, stored, if_false, found, place]
      exact .applied e.clock.limited _ (placed _ _ (List.Sublist.refl _)) rfl
    | some item =>
      have newer : ¬ p.meta_.timestamp ≤ item.payload.meta_.timestamp :=
        fun notNewer => recorded (.inr ⟨item, found, notNewer⟩)
      simp only [addItem, stored, if_false, found, newer, place]
      exact .applied e.clock.limited _ (placed _ _ List.eraseP_sublist) rfl

theorem perform_trimmed (s : ClipboardActivityStore) (e : Event) : Trimmed s e (s.perform e).store := by
  obtain ⟨call, clock⟩ := e
  cases call with
  | add p => exact addItem_trimmed rfl
  | remove itemID =>
    have gone := removeFirst_sublist s (fun item => item.header.id = itemID)
    exact .fewer gone.2.2 gone.1
  | removeByEventGuid eventGuid =>
    show Trimmed s _ (s.removeByEventGuid eventGuid).store
    unfold removeByEventGuid
    split_ifs
    · exact .fewer rfl (List.Sublist.refl _)
    · have gone := removeFirst_sublist s (fun item => item.payload.meta_.eventGuid = eventGuid)
      exact .fewer gone.2.2 gone.1
  | clear =>
    show Trimmed s _ s.clear.store
    unfold clear
    split_ifs
    · exact .fewer rfl (List.Sublist.refl _)
    · exact .fewer rfl (List.nil_sublist _)
  | setLimits limits => exact .applied clock.limited s.items (Nat.le_add_right _ _) rfl
  | snapshot => exact .applied clock.limited s.items (Nat.le_add_right _ _) rfl

def Counted (s : ClipboardActivityStore) : Prop :=
  s.limits.maxItems ≠ 0 → s.items.length ≤ s.limits.maxItems.toNat

theorem Counted.step (counted : Counted s) (trimmed : Trimmed s e t) : Counted t := by
  intro limited
  cases trimmed with
  | fewer limits rest =>
    rw [limits] at limited ⊢
    exact rest.length_le.trans (counted limited)
  | applied now all _ kept =>
    rw [kept]
    exact applyLimits_counted limited now all

def WithinBytes (s : ClipboardActivityStore) : Prop :=
  s.limits.memoryLimitBytes ≠ 0 → totalSize s.items ≤ s.limits.memoryLimitBytes.toNat ∨ s.items.length ≤ 1

/-- The estimates of the items, and of the one a call brings, sum up to a 64-bit number. -/
def Addressable (s : ClipboardActivityStore) (e : Event) : Prop := totalSize s.items + broughtIn e.call < 2 ^ 64

theorem WithinBytes.step (within : WithinBytes s) (fits : Addressable s e) (trimmed : Trimmed s e t) :
    WithinBytes t := by
  intro limited
  cases trimmed with
  | fewer limits rest =>
    rw [limits] at limited ⊢
    have less := totalSize_sublist rest
    have shorter := rest.length_le
    rcases within limited with small | single
    · exact .inl (by omega)
    · exact .inr (by omega)
  | applied now all size kept =>
    rw [kept]
    exact applyLimits_fits limited now (size.trans_lt fits)

end ClippProof.Clipboard
