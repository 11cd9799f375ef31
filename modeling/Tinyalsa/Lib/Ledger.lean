/-
A ledger of the things a program has taken and not given back. Each has a number of its own, so that giving back one
thing twice is told from giving back two. A specification names what a program takes or gives back; whatever else is
held stays.
-/
import Mathlib.Data.Multiset.Count
import Tinyalsa.Lib.Hoare

/-- A thing of a kind. -/
structure Ledger.Item (κ : Type) where
  kind : κ
  number : Nat
  deriving DecidableEq, Repr

/-- What is held; the numbers from `next` on are fresh. `sound` says that only what was held has been given back. -/
structure Ledger (κ : Type) where
  held : List (Ledger.Item κ) := []
  next : Nat := 0
  sound : Bool := true

namespace Ledger

open Hoare

variable {κ : Type}

/-- Takes a new thing of a kind, and tells its number. -/
def acquire (k : κ) : StateM (Ledger κ) Nat := do
  let l ← get
  set { l with held := ⟨k, l.next⟩ :: l.held, next := l.next + 1 }
  return l.next

/-- Gives a thing back. -/
def release [DecidableEq κ] (k : κ) (n : Nat) : StateM (Ledger κ) Unit :=
  modify fun l => { l with held := l.held.erase ⟨k, n⟩, sound := l.sound && decide (⟨k, n⟩ ∈ l.held) }

/-- The ledger is sound, and these things are held. -/
structure Holds (P : Multiset (Item κ)) (l : Ledger κ) : Prop where
  sound : l.sound = true
  held : (l.held : Multiset (Item κ)) = P
  /-- No two things have one number. -/
  nodup : (l.held.map Item.number).Nodup
  fresh : ∀ i ∈ l.held, i.number < l.next

/-- How many things of a kind are held. -/
def count [DecidableEq κ] (k : κ) (l : Ledger κ) : Nat := (l.held.map Item.kind).count k

variable {P Q : Multiset (Item κ)} {l : Ledger κ} {k : κ} {n : Nat}

theorem holds_empty : Holds 0 ({} : Ledger κ) := ⟨rfl, rfl, List.nodup_nil, fun _ hi => absurd hi List.not_mem_nil⟩

theorem Holds.count [DecidableEq κ] (h : Holds P l) (k : κ) : l.count k = (P.map Item.kind).count k := by
  rw [← h.held]
  exact (Multiset.coe_count k _).symm

/-- A thing taken is held beside what was held before. -/
theorem acquire_spec (k : κ) : Triple (Holds P) (acquire k) fun n => Holds (⟨k, n⟩ ::ₘ P) := by
  intro l h
  refine ⟨h.sound, congrArg (Multiset.cons (⟨k, l.next⟩ : Item κ)) h.held, ?_, ?_⟩
  · refine List.nodup_cons.2 ⟨fun hmem => ?_, h.nodup⟩
    obtain ⟨i, hi, heq⟩ := List.mem_map.1 hmem
    exact absurd heq (Nat.ne_of_lt (h.fresh i hi))
  · exact List.forall_mem_cons.2 ⟨Nat.lt_succ_self _, fun i hi => Nat.lt_succ_of_lt (h.fresh i hi)⟩

/-- A thing given back is held no longer, and the rest is. -/
theorem release_spec [DecidableEq κ] (h : Q = ⟨k, n⟩ ::ₘ P) : Triple (Holds Q) (release k n) fun _ => Holds P := by
  rintro l hl
  have hheld := hl.held.trans h
  have hmem : ⟨k, n⟩ ∈ l.held := Multiset.mem_coe.1 (hheld ▸ Multiset.mem_cons_self _ P)
  refine ⟨?_, ?_, ?_, fun j hj => hl.fresh j (List.mem_of_mem_erase hj)⟩
  · change (l.sound && decide (⟨k, n⟩ ∈ l.held)) = true
    rw [hl.sound, decide_eq_true hmem, Bool.true_and]
  · change ((l.held.erase ⟨k, n⟩ : List (Item κ)) : Multiset (Item κ)) = P
    rw [← Multiset.coe_erase, hheld, Multiset.erase_cons_head]
  · exact hl.nodup.sublist ((List.erase_sublist ..).map Item.number)

end Ledger
