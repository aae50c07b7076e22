import Mathlib.Data.List.Forall2

def List.Amid {ι : Type} {α : Type v} (P : (ι → α) → Prop) (l : ι → List α) : Prop :=
  ∃ before y after, P y ∧ ∀ i, l i = before ++ y i :: after

namespace List

variable {ι : Type} {α : Type v} {β : Type w} {P : (ι → α) → Prop} {Q : (ι → β) → Prop} {l : ι → List α} {f : α → β}

theorem Amid.map (h : Amid P l) (kind : ∀ y, P y → Q fun i => f (y i)) : Amid Q fun i => (l i).map f := by
  obtain ⟨before, y, after, held, whole⟩ := h
  refine ⟨before.map f, fun i => f (y i), after.map f, kind y held, fun i => ?_⟩
  simp only [whole, map_append, map_cons]

theorem Amid.append_left (h : Amid P l) (as : List α) : Amid P fun i => as ++ l i := by
  obtain ⟨before, y, after, held, whole⟩ := h
  exact ⟨as ++ before, y, after, held, fun i => by simp only [whole, append_assoc]⟩

theorem Amid.append_right (h : Amid P l) (as : List α) : Amid P fun i => l i ++ as := by
  obtain ⟨before, y, after, held, whole⟩ := h
  exact ⟨before, y, after ++ as, held, fun i => by simp only [whole, append_assoc, cons_append]⟩

theorem Amid.exists_map_eq (h : Amid P l) (same : ∀ y, P y → ∃ b, ∀ i, f (y i) = b) : ∃ bs, ∀ i, (l i).map f = bs := by
  obtain ⟨before, y, after, held, whole⟩ := h
  obtain ⟨b, all⟩ := same y held
  refine ⟨before.map f ++ b :: after.map f, fun i => ?_⟩
  rw [whole, map_append, map_cons, all]

section

variable {R : α → β → Prop} {as : List α} {bs : List β}

theorem Forall₂.exists_mem_zip (h : as.Forall₂ R bs) {a : α} (ha : a ∈ as) : ∃ b, (a, b) ∈ as.zip bs ∧ R a b := by
  induction h with
  | nil => cases ha
  | cons first _ ih =>
    rw [zip_cons_cons]
    obtain rfl | later := mem_cons.1 ha
    · exact ⟨_, mem_cons_self, first⟩
    · obtain ⟨b, hb, made⟩ := ih later
      exact ⟨b, mem_cons_of_mem _ hb, made⟩

theorem Forall₂.exists_of_mem (h : as.Forall₂ R bs) {a : α} (ha : a ∈ as) : ∃ b ∈ bs, R a b := by
  obtain ⟨b, paired, made⟩ := h.exists_mem_zip ha
  exact ⟨b, (of_mem_zip paired).2, made⟩

theorem Forall₂.map_eq_zipWith {γ : Type x} {f : α → γ} {g : α → β → γ} (h : as.Forall₂ R bs)
    (same : ∀ a ∈ as, ∀ b, R a b → f a = g a b) : as.map f = as.zipWith g bs := by
  induction h with
  | nil => rfl
  | cons first _ ih =>
    obtain ⟨one, others⟩ := forall_mem_cons.1 same
    rw [map_cons, zipWith_cons_cons, ih others, one _ first]

end

end List

namespace Except

variable {ε : Type u} {α β : Type v} {x : Except ε α} {f : α → Except ε β}

@[simp] theorem throw_eq (e : ε) : (throw e : Except ε α) = .error e := rfl

@[simp] theorem pure_eq (a : α) : (pure a : Except ε α) = .ok a := rfl

@[simp] theorem ok_bind (a : α) (f : α → Except ε β) : (.ok a >>= f) = f a := rfl

@[simp] theorem error_bind (e : ε) (f : α → Except ε β) : (.error e >>= f) = .error e := rfl

theorem exists_of_any {p : α → Bool} (h : x.toOption.any p = true) : ∃ a, x = .ok a ∧ p a = true := by
  cases x with
  | error e => cases h
  | ok a => exact ⟨a, rfl, h⟩

theorem toOption_eq_some {a : α} : x.toOption = some a ↔ x = .ok a := by
  cases x <;> simp [Except.toOption]

theorem bind_eq_ok {b : β} : x >>= f = .ok b ↔ ∃ a, x = .ok a ∧ f a = .ok b := by
  cases x <;> simp [bind, Except.bind]

theorem bind_eq_error {e : ε} : x >>= f = .error e ↔ x = .error e ∨ ∃ a, x = .ok a ∧ f a = .error e := by
  cases x <;> simp [bind, Except.bind]

theorem map_eq_ok {g : α → β} {b : β} : x.map g = .ok b ↔ ∃ a, x = .ok a ∧ g a = b := by
  cases x <;> simp [Except.map]

theorem mapError_eq_ok {ε' : Type*} {g : ε → ε'} {a : α} : x.mapError g = .ok a ↔ x = .ok a := by
  cases x <;> simp [Except.mapError]

theorem mapM_eq_ok {α β : Type} {l : List α} {f : α → Except ε β} {g : α → β} (h : ∀ a ∈ l, f a = .ok (g a)) :
    l.mapM f = .ok (l.map g) := by
  induction l with
  | nil => rfl
  | cons a r ih =>
    obtain ⟨first, rest⟩ := List.forall_mem_cons.1 h
    rw [List.mapM_cons, first, ok_bind, ih rest, ok_bind]
    rfl

theorem forall₂_of_mapM {α β : Type} {l : List α} {f : α → Except ε β} {bs : List β} (h : l.mapM f = .ok bs) :
    l.Forall₂ (fun a b => f a = .ok b) bs := by
  induction l generalizing bs with
  | nil =>
    cases h
    exact .nil
  | cons a r ih =>
    rw [List.mapM_cons] at h
    obtain ⟨b, first, rest⟩ := bind_eq_ok.1 h
    obtain ⟨cs, later, made⟩ := bind_eq_ok.1 rest
    cases made
    exact .cons first (ih later)

theorem mapM_congr {α β : Type} {l : List α} {f g : α → Except ε β} (h : ∀ a ∈ l, f a = g a) : l.mapM f = l.mapM g := by
  induction l with
  | nil => rfl
  | cons a r ih =>
    obtain ⟨first, rest⟩ := List.forall_mem_cons.1 h
    rw [List.mapM_cons, List.mapM_cons, first, ih rest]

theorem mapM_map {α β γ : Type} (f : α → Except ε β) (g : β → γ) (l : List α) :
    l.mapM (fun a => (f a).map g) = (l.mapM f).map (List.map g) := by
  induction l with
  | nil => rfl
  | cons a r ih =>
    rw [List.mapM_cons, List.mapM_cons, ih]
    cases f a with
    | error e => rfl
    | ok b => cases r.mapM f <;> rfl

/-- Whether it ends well, with a result of a kind. -/
def Yields (x : Except ε α) (P : α → Prop) : Prop := ∃ a, x = .ok a ∧ P a

variable {P : α → Prop} {Q : β → Prop}

@[simp] theorem yields_ok {a : α} : (.ok a : Except ε α).Yields P ↔ P a := by
  simp [Yields]

theorem Yields.bind (h : x.Yields P) (next : ∀ a, P a → (f a).Yields Q) : (x >>= f).Yields Q := by
  obtain ⟨a, rfl, kind⟩ := h
  exact next a kind

theorem Yields.mapM {α β : Type} {R : α → β → Prop} {l : List α} {f : α → Except ε β}
    (h : ∀ a ∈ l, (f a).Yields (R a)) : (l.mapM f).Yields (l.Forall₂ R) := by
  induction l with
  | nil => exact ⟨[], rfl, .nil⟩
  | cons a r ih =>
    obtain ⟨first, rest⟩ := List.forall_mem_cons.1 h
    obtain ⟨b, ends, kind⟩ := first
    obtain ⟨bs, later, kinds⟩ := ih rest
    refine ⟨b :: bs, ?_, .cons kind kinds⟩
    rw [List.mapM_cons, ends, ok_bind, later]
    rfl

theorem forall_of_forall₂ {α β : Type} {R : α → β → Prop} {P : β → Prop} {l : List α} {bs : List β}
    (kind : ∀ a b, R a b → P b) (h : l.Forall₂ R bs) : ∀ b ∈ bs, P b := by
  induction h with
  | nil => simp
  | cons first _ ih => exact List.forall_mem_cons.2 ⟨kind _ _ first, ih⟩

theorem Yields.mapM_all {α β : Type} {P : β → Prop} {l : List α} {f : α → Except ε β}
    (h : ∀ a ∈ l, (f a).Yields P) : (l.mapM f).Yields fun bs => ∀ b ∈ bs, P b := by
  obtain ⟨bs, ends, kinds⟩ := Yields.mapM (R := fun _ => P) h
  exact ⟨bs, ends, forall_of_forall₂ (fun _ _ => id) kinds⟩

theorem Yields.self (h : x.Yields P) : x.Yields fun a => x = .ok a ∧ P a := by
  obtain ⟨a, ends, kind⟩ := h
  exact ⟨a, ends, ends, kind⟩

/-- Whether all that can go wrong is of a kind. -/
def FailsBy (x : Except ε α) (P : ε → Prop) : Prop := ∀ e, x = .error e → P e

section

variable {P : ε → Prop}

@[simp] theorem failsBy_ok {a : α} : (.ok a : Except ε α).FailsBy P := by
  simp [FailsBy]

@[simp] theorem failsBy_error {e : ε} : (.error e : Except ε α).FailsBy P ↔ P e := by
  simp [FailsBy]

theorem failsBy_iff : x.FailsBy P ↔ (∃ a, x = .ok a) ∨ ∃ e, x = .error e ∧ P e := by
  cases x <;> simp

theorem failsBy_bind : (x >>= f).FailsBy P ↔ x.FailsBy P ∧ ∀ a, x = .ok a → (f a).FailsBy P := by
  cases x <;> simp

theorem failsBy_bind_of_iff {q : Prop} (next : ∀ a, x = .ok a → ((f a).FailsBy P ↔ q)) :
    (x >>= f).FailsBy P ↔ x.FailsBy P ∧ ((∃ a, x = .ok a) → q) := by
  rw [failsBy_bind, forall_exists_index]
  exact and_congr_right fun _ => forall₂_congr next

end

section

variable {ι : Type} {ε : Type u} {α β : Type v} {x : ι → Except ε α} {f : ι → α → Except ε β} {P : (ι → α) → Prop}
  {Q : (ι → β) → Prop}

/-- Whether all fail with the same fault, or none does and their results are of a kind together. -/
def Evenly (x : ι → Except ε α) (P : (ι → α) → Prop) : Prop :=
  (∃ e, ∀ i, x i = .error e) ∨ ∃ y, P y ∧ ∀ i, x i = .ok (y i)

theorem Evenly.ok {y : ι → α} (h : P y) : Evenly (fun i => (.ok (y i) : Except ε α)) P := .inr ⟨y, h, fun _ => rfl⟩

theorem Evenly.bind (h : Evenly x P) (next : ∀ y, P y → Evenly (fun i => f i (y i)) Q) :
    Evenly (fun i => x i >>= f i) Q := by
  obtain ⟨e, fails⟩ | ⟨y, kind, ends⟩ := h
  · exact .inl ⟨e, fun i => by simp only [fails, error_bind]⟩
  · simpa only [ends, ok_bind] using next y kind

theorem Evenly.after (x : Except ε α) (next : ∀ a, x = .ok a → Evenly (fun i => f i a) Q) :
    Evenly (fun i => x >>= f i) Q := by
  cases x with
  | error e => exact .inl ⟨e, fun _ => rfl⟩
  | ok a => exact next a rfl

theorem mapM_append_cons {α β : Type} (before after : List α) (a : α) (f : α → Except ε β) :
    (before ++ a :: after).mapM f =
      before.mapM f >>= fun bs => f a >>= fun b => after.mapM f >>= fun cs => .ok (bs ++ b :: cs) := by
  simp [List.mapM_append, List.mapM_cons]

theorem Evenly.mapM {α β : Type} {P : (ι → α) → Prop} {Q : (ι → β) → Prop} {l : ι → List α} {f : α → Except ε β}
    (h : List.Amid P l) (step : ∀ y, P y → Evenly (fun i => f (y i)) Q) :
    Evenly (fun i => (l i).mapM f) (List.Amid Q) := by
  obtain ⟨before, y, after, kind, whole⟩ := h
  simp only [whole, mapM_append_cons]
  exact .after _ fun bs _ => (step y kind).bind fun z made => .after _ fun cs _ =>
    .ok ⟨bs, z, cs, made, fun _ => rfl⟩

end

end Except
