import Mathlib.Data.List.Nodup

/-!
# Attempts that may fail

An attempt is an error or a result.  The next one is made with the result only, and a loop of
attempts that each list a new key succeeds when all keys are new.
-/

namespace Grab.Lib

open List

variable {ε α β : Type}

/-- A bind that succeeded, taken apart. -/
theorem bind_ok {first : Except ε α} {next : α → Except ε β} {result : β}
    (ok : first >>= next = .ok result) : ∃ value, first = .ok value ∧ next value = .ok result := by
  cases first with
  | error error => cases ok
  | ok value => exact ⟨value, rfl, ok⟩

theorem bind_of_ok {first : Except ε α} {value : α} (ok : first = .ok value)
    (next : α → Except ε β) : first >>= next = next value := by
  rw [ok]
  rfl

/-- A loop whose turns succeed on fine items with a new key, and list the key, succeeds when all
items are fine and no key comes twice. -/
theorem foldlM_ok_iff {σ ι κ ε : Type} {check : σ → ι → Except ε σ} {seen : σ → List κ}
    {key : ι → κ} {fine : ι → Prop} {next : σ → ι → σ}
    (turn : ∀ state item result, check state item = .ok result ↔
      (fine item ∧ key item ∉ seen state) ∧ result = next state item)
    (grows : ∀ state item, seen (next state item) = seen state ++ [key item])
    {items : List ι} {state result : σ} (once : (seen state).Nodup) :
    items.foldlM check state = .ok result ↔
      ((∀ item ∈ items, fine item) ∧ (seen state ++ items.map key).Nodup) ∧
        result = items.foldl next state := by
  induction items generalizing state with
  | nil =>
    rw [foldlM_nil, foldl_nil, map_nil, append_nil]
    constructor
    · intro same
      exact ⟨⟨forall_mem_nil _, once⟩, (Except.ok.inj same).symm⟩
    · rintro ⟨_, rfl⟩
      rfl
  | cons item rest ih =>
    rw [foldlM_cons, foldl_cons, map_cons, forall_mem_cons]
    have onceIff : (seen state ++ [key item]).Nodup ↔ key item ∉ seen state := by
      rw [nodup_append]
      constructor
      · rintro ⟨_, _, apart⟩ member
        exact apart _ member _ (mem_singleton_self _) rfl
      intro fresh
      refine ⟨once, nodup_singleton _, ?_⟩
      rintro other member _ isKey rfl
      exact fresh (mem_singleton.mp isKey ▸ member)
    constructor
    · intro accepted
      rcases bind_ok accepted with ⟨grown, first, later⟩
      rcases (turn _ _ _).mp first with ⟨⟨itemFine, fresh⟩, rfl⟩
      rw [ih (by rw [grows]; exact onceIff.mpr fresh), grows, append_assoc] at later
      exact ⟨⟨⟨itemFine, later.1.1⟩, later.1.2⟩, later.2⟩
    rintro ⟨⟨⟨itemFine, restFine⟩, allOnce⟩, resultEq⟩
    rw [← singleton_append, ← append_assoc] at allOnce
    have fresh := onceIff.mp (nodup_append.mp allOnce).1
    rw [(turn _ _ _).mpr ⟨⟨itemFine, fresh⟩, rfl⟩]
    apply (ih _).mpr ⟨⟨restFine, _⟩, resultEq⟩
    · rw [grows]
      exact onceIff.mpr fresh
    · rw [grows]
      exact allOnce

end Grab.Lib
