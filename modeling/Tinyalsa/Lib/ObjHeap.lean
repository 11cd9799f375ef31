/-
A heap of whole objects, and the list of the objects that are allocated: what an allocation, an update
and a deallocation do to that list.
-/
import Mathlib.Tactic

/-- Objects at addresses. The addresses from `next` on are fresh; 0 is none. -/
structure ObjHeap (α : Type) where
  obj : Nat → Option α := fun _ => none
  next : Nat := 1

namespace ObjHeap

variable {α : Type}

/-- The heap with a new object, at `next`. -/
def alloc (h : ObjHeap α) (v : α) : ObjHeap α where
  obj := Function.update h.obj h.next (some v)
  next := h.next + 1

def free (h : ObjHeap α) (x : Nat) : ObjHeap α := { h with obj := Function.update h.obj x none }

def put (h : ObjHeap α) (x : Nat) (v : α) : ObjHeap α := { h with obj := Function.update h.obj x (some v) }

/-- The objects of the heap are those of a list, each at an address of its own. -/
structure Owns (h : ObjHeap α) (l : List (Nat × α)) : Prop where
  mem_iff : ∀ x v, h.obj x = some v ↔ (x, v) ∈ l
  nodup : (l.map Prod.fst).Nodup
  pos : ∀ p ∈ l, p.1 ≠ 0
  lt_next : ∀ p ∈ l, p.1 < h.next
  next_pos : h.next ≠ 0

namespace Owns

variable {h : ObjHeap α} {l l' : List (Nat × α)} {x : Nat} {u v : α}

theorem empty : Owns ({} : ObjHeap α) [] where
  mem_iff x v := by
    constructor <;> rintro ⟨⟩
  nodup := List.nodup_nil
  pos := by rintro p ⟨⟩
  lt_next := by rintro p ⟨⟩
  next_pos := Nat.one_ne_zero

theorem perm (hl : l.Perm l') (ho : Owns h l) : Owns h l' where
  mem_iff x v := (ho.mem_iff x v).trans hl.mem_iff
  nodup := (hl.map Prod.fst).nodup_iff.1 ho.nodup
  pos p hp := ho.pos p (hl.mem_iff.2 hp)
  lt_next p hp := ho.lt_next p (hl.mem_iff.2 hp)
  next_pos := ho.next_pos

theorem get (ho : Owns h l) (hx : (x, v) ∈ l) : h.obj x = some v := (ho.mem_iff x v).2 hx

theorem alloc (ho : Owns h l) (v : α) : Owns (h.alloc v) ((h.next, v) :: l) := by
  have hfresh : ∀ p ∈ l, p.1 ≠ h.next := fun p hp => Nat.ne_of_lt (ho.lt_next p hp)
  constructor
  · intro x u
    rw [List.mem_cons, Prod.mk.injEq]
    unfold ObjHeap.alloc
    dsimp only
    by_cases hx : x = h.next
    · subst hx
      rw [Function.update_self, Option.some.injEq]
      constructor
      · rintro rfl
        exact .inl ⟨rfl, rfl⟩
      · rintro (⟨-, rfl⟩ | hu)
        · rfl
        · exact absurd rfl (hfresh _ hu)
    · rw [Function.update_of_ne hx, ho.mem_iff, or_iff_right fun h => hx h.1]
  · rw [List.map_cons, List.nodup_cons]
    refine ⟨fun hmem => ?_, ho.nodup⟩
    obtain ⟨p, hp, heq⟩ := List.mem_map.1 hmem
    exact hfresh p hp heq
  · rintro p (_ | ⟨_, hp⟩)
    · exact ho.next_pos
    · exact ho.pos p hp
  · rintro p (_ | ⟨_, hp⟩)
    · exact Nat.lt_succ_self _
    · exact Nat.lt_succ_of_lt (ho.lt_next p hp)
  · exact Nat.succ_ne_zero _

/-- The rest of the list is at other addresses than its head. -/
theorem ne_head (ho : Owns h ((x, v) :: l)) {p : Nat × α} (hp : p ∈ l) : p.1 ≠ x := by
  rintro rfl
  exact (List.nodup_cons.1 ho.nodup).1 (List.mem_map.2 ⟨p, hp, rfl⟩)

theorem free (ho : Owns h ((x, v) :: l)) : Owns (h.free x) l := by
  constructor
  · intro y u
    unfold ObjHeap.free
    dsimp only
    by_cases hy : y = x
    · subst hy
      rw [Function.update_self]
      constructor
      · rintro ⟨⟩
      · exact fun hu => absurd rfl (ho.ne_head hu)
    · rw [Function.update_of_ne hy, ho.mem_iff, List.mem_cons, Prod.mk.injEq, or_iff_right fun h => hy h.1]
  · exact (List.nodup_cons.1 ho.nodup).2
  · exact fun p hp => ho.pos p (List.mem_cons_of_mem _ hp)
  · exact fun p hp => ho.lt_next p (List.mem_cons_of_mem _ hp)
  · exact ho.next_pos

theorem put (ho : Owns h ((x, u) :: l)) (v : α) : Owns (h.put x v) ((x, v) :: l) := by
  constructor
  · intro y t
    unfold ObjHeap.put
    dsimp only
    rw [List.mem_cons, Prod.mk.injEq]
    by_cases hy : y = x
    · subst hy
      rw [Function.update_self, Option.some.injEq]
      constructor
      · rintro rfl
        exact .inl ⟨rfl, rfl⟩
      · rintro (⟨-, rfl⟩ | ht)
        · rfl
        · exact absurd rfl (ho.ne_head ht)
    · rw [Function.update_of_ne hy, ho.mem_iff, List.mem_cons, Prod.mk.injEq]
      simp only [hy, false_and, false_or]
  · exact ho.nodup
  · rintro p (_ | ⟨_, hp⟩)
    · exact ho.pos (x, u) List.mem_cons_self
    · exact ho.pos p (List.mem_cons_of_mem _ hp)
  · rintro p (_ | ⟨_, hp⟩)
    · exact ho.lt_next (x, u) List.mem_cons_self
    · exact ho.lt_next p (List.mem_cons_of_mem _ hp)
  · exact ho.next_pos

end Owns

end ObjHeap
