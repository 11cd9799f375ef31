/-
Partial-correctness triples for programs of the state monad. A triple relates the state before a
program to its result and the state after it; the rules follow the constructors programs are built
from, so a specification of a program is assembled from those of its parts.
-/
import Mathlib.Tactic

namespace Hoare

variable {σ α β : Type}

/-- The result and the state a program leaves. -/
def exec (m : StateM σ α) (s : σ) : α × σ := (m.run s).run

@[simp] theorem exec_pure (a : α) (s : σ) : exec (pure a : StateM σ α) s = (a, s) := (rfl)

@[simp] theorem exec_bind (m : StateM σ α) (f : α → StateM σ β) (s : σ) :
    exec (m >>= f) s = exec (f (exec m s).1) (exec m s).2 := (rfl)

@[simp] theorem exec_map (f : α → β) (m : StateM σ α) (s : σ) :
    exec (f <$> m) s = (f (exec m s).1, (exec m s).2) := (rfl)

@[simp] theorem exec_get (s : σ) : exec (get : StateM σ σ) s = (s, s) := (rfl)

@[simp] theorem exec_set (s t : σ) : exec (set t : StateM σ PUnit) s = ((), t) := (rfl)

@[simp] theorem exec_modify (f : σ → σ) (s : σ) : exec (modify f : StateM σ PUnit) s = ((), f s) := (rfl)

@[simp] theorem exec_ite (c : Prop) [Decidable c] (m n : StateM σ α) (s : σ) :
    exec (if c then m else n) s = if c then exec m s else exec n s := by
  split <;> rfl

/-- From every state of `P`, the program leaves a result and a state of `Q`. -/
def Triple (P : σ → Prop) (m : StateM σ α) (Q : α → σ → Prop) : Prop :=
  ∀ s, P s → Q (exec m s).1 (exec m s).2

namespace Triple

variable {P P' : σ → Prop} {Q Q' : α → σ → Prop} {R : β → σ → Prop}

theorem pure (a : α) (h : ∀ s, P s → Q a s) : Triple P (Pure.pure a : StateM σ α) Q := h

theorem bind {m : StateM σ α} {f : α → StateM σ β} (hm : Triple P m Q) (hf : ∀ a, Triple (Q a) (f a) R) :
    Triple P (m >>= f) R := fun s hs => hf _ _ (hm s hs)

theorem get_bind {f : σ → StateM σ β} (hf : ∀ t, Triple (fun s => P s ∧ s = t) (f t) R) :
    Triple P (get >>= f) R := fun s hs => hf s s ⟨hs, rfl⟩

/-- What a precondition says of no state is a hypothesis. -/
theorem assume {c : Prop} {m : StateM σ α} (h : c → Triple P m Q) : Triple (fun s => P s ∧ c) m Q :=
  fun s hs => h hs.2 s hs.1

theorem modify {f : σ → σ} {Q : PUnit → σ → Prop} (h : ∀ s, P s → Q () (f s)) :
    Triple P (modify f : StateM σ PUnit) Q := h

theorem ite {c : Prop} [Decidable c] {m n : StateM σ α} (hm : c → Triple P m Q) (hn : ¬ c → Triple P n Q) :
    Triple P (if c then m else n) Q := by
  split
  · exact hm ‹c›
  · exact hn ‹¬ c›

theorem mono {m : StateM σ α} (h : Triple P m Q) (hp : ∀ s, P' s → P s) (hq : ∀ a s, Q a s → Q' a s) :
    Triple P' m Q' := fun s hs => hq _ _ (h s (hp s hs))

theorem post {m : StateM σ α} (h : Triple P m Q) (hq : ∀ a s, Q a s → Q' a s) : Triple P m Q' :=
  h.mono (fun _ => id) hq

theorem pre {m : StateM σ α} (h : Triple P m Q) (hp : ∀ s, P' s → P s) : Triple P' m Q :=
  h.mono hp (fun _ _ => id)

end Triple

end Hoare
