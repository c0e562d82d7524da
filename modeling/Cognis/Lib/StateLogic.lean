import Mathlib.Tactic.Common

/-! Programs over an explicit state. A triple speaks about every run of the
program; the evaluation lemmas turn one run into a pure expression. -/
namespace StateLogic

variable {σ α β : Type}

@[simp] theorem id_pure (a : α) : (pure a : Id α) = a := rfl

@[simp] theorem id_bind (a : Id α) (f : α → Id β) : (a >>= f) = f a := rfl

@[simp ↓] theorem run_ite (c : Prop) [Decidable c] (x y : StateM σ α) (s : σ) :
    (if c then x else y).run s = if c then x.run s else y.run s := by
  split <;> rfl

theorem run_getThe (s : σ) : (get : StateM σ σ).run s = (s, s) := Prod.ext rfl rfl

theorem run_modifyState (f : σ → σ) (s : σ) :
    (modify f : StateM σ PUnit).run s = (PUnit.unit, f s) := Prod.ext rfl rfl

theorem run_then (x : StateM σ α) (f : α → StateM σ β) (s : σ) :
    (x >>= f).run s = (f (x.run s).1).run (x.run s).2 := Prod.ext rfl rfl

theorem run_done (a : α) (s : σ) : (pure a : StateM σ α).run s = (a, s) := Prod.ext rfl rfl

/-- From every state with `P`, the run ends with `Q` of its value and state. -/
def Triple (P : σ → Prop) (x : StateM σ α) (Q : α → σ → Prop) : Prop :=
  ∀ s, P s → Q (x.run s).1 (x.run s).2

def Keeps (I : σ → Prop) (x : StateM σ α) : Prop := Triple I x fun _ s => I s

theorem Triple.pure {P : σ → Prop} {Q : α → σ → Prop} {a : α} (h : ∀ s, P s → Q a s) :
    Triple P (pure a) Q := h

theorem Triple.bind {P : σ → Prop} {R : α → σ → Prop} {Q : β → σ → Prop}
    {x : StateM σ α} {f : α → StateM σ β} (hx : Triple P x R)
    (hf : ∀ a, Triple (R a) (f a) Q) : Triple P (x >>= f) Q :=
  fun s hs => hf _ _ (hx s hs)

theorem Triple.modify {P : σ → Prop} {Q : PUnit → σ → Prop} {f : σ → σ}
    (h : ∀ s, P s → Q PUnit.unit (f s)) : Triple P (modify f : StateM σ PUnit) Q := h

theorem Keeps.pure {I : σ → Prop} (a : α) : Keeps I (Pure.pure a : StateM σ α) :=
  fun _ hs => hs

theorem Keeps.get {I : σ → Prop} : Keeps I (MonadState.get : StateM σ σ) := fun _ hs => hs

/-- The rest may use that the value read satisfies the predicate. -/
theorem Keeps.read {I : σ → Prop} {f : σ → StateM σ β} (h : ∀ s, I s → Keeps I (f s)) :
    Keeps I (MonadState.get >>= f) :=
  fun s hs => h s hs s hs

theorem Keeps.bind {I : σ → Prop} {x : StateM σ α} {f : α → StateM σ β}
    (hx : Keeps I x) (hf : ∀ a, Keeps I (f a)) : Keeps I (x >>= f) :=
  Triple.bind hx hf

theorem Keeps.update {I : σ → Prop} {f : σ → σ} (h : ∀ s, I s → I (f s)) :
    Keeps I (modify f : StateM σ PUnit) := h

/-- From `f s`, the second program does what the first does from `s`. -/
def MirrorsAt (f : σ → σ) (s : σ) (x y : StateM σ α) : Prop :=
  y.run (f s) = ((x.run s).1, f (x.run s).2)

def Mirrors (f : σ → σ) (x y : StateM σ α) : Prop := ∀ s, MirrorsAt f s x y

theorem MirrorsAt.bind {f : σ → σ} {s : σ} {x x' : StateM σ α} {g g' : α → StateM σ β}
    (hx : MirrorsAt f s x x') (hg : MirrorsAt f (x.run s).2 (g (x.run s).1) (g' (x.run s).1)) :
    MirrorsAt f s (x >>= g) (x' >>= g') := by
  rw [MirrorsAt, run_then, run_then, hx]
  exact hg

namespace Mirrors

variable {f : σ → σ} {x x' y y' : StateM σ α}

theorem pure (a : α) : Mirrors f (Pure.pure a) (Pure.pure a) := fun _ => rfl

theorem bind {g g' : α → StateM σ β} (hx : Mirrors f x x') (hg : ∀ a, Mirrors f (g a) (g' a)) :
    Mirrors f (x >>= g) (x' >>= g') := fun s => MirrorsAt.bind (hx s) (hg _ _)

theorem read {g g' : σ → StateM σ β} (h : ∀ s, Mirrors f (g s) (g' (f s))) :
    Mirrors f (get >>= g) (get >>= g') := fun s => h s s

theorem update {g g' : σ → σ} (h : ∀ s, g' (f s) = f (g s)) :
    Mirrors f (modify g : StateM σ PUnit) (modify g') := fun s => Prod.ext rfl (h s)

theorem ite (c : Prop) [Decidable c] (hx : Mirrors f x x') (hy : Mirrors f y y') :
    Mirrors f (if c then x else y) (if c then x' else y') := by
  split
  · exact hx
  · exact hy

theorem orElse {x x' y y' : StateM σ Bool} (hx : Mirrors f x x') (hy : Mirrors f y y') :
    Mirrors f (do if ← x then return true else y) (do if ← x' then return true else y') :=
  bind hx fun _ => ite _ (pure true) hy

end Mirrors

end StateLogic
