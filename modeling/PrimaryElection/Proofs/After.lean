namespace PrimaryElection

variable {ε σ α β : Type}

def After (x : EStateM ε σ α) (s : σ) (Q : Except ε α → σ → Prop) : Prop :=
  match x s with
  | .ok a s' => Q (.ok a) s'
  | .error e s' => Q (.error e) s'

def Gives (x : EStateM ε σ α) (s : σ) (P : α → σ → Prop) : Prop := ∃ a s', x s = .ok a s' ∧ P a s'

def left (x : EStateM ε σ α) (s : σ) : σ :=
  match x s with
  | .ok _ s' => s'
  | .error _ s' => s'

theorem after_of_ok {x : EStateM ε σ α} {s s' : σ} {a : α} {Q : Except ε α → σ → Prop}
    (hx : x s = .ok a s') (hq : Q (.ok a) s') : After x s Q := by
  simp only [After, hx]
  exact hq

theorem after_of_error {x : EStateM ε σ α} {s s' : σ} {e : ε} {Q : Except ε α → σ → Prop}
    (hx : x s = .error e s') (hq : Q (.error e) s') : After x s Q := by
  simp only [After, hx]
  exact hq

theorem after_pure {a : α} {s : σ} {Q : Except ε α → σ → Prop} (h : Q (.ok a) s) :
    After (pure a) s Q := h

theorem after_throw {e : ε} {s : σ} {Q : Except ε α → σ → Prop} (h : Q (.error e) s) :
    After (throw e) s Q := h

theorem after_ite {c : Prop} [Decidable c] {x y : EStateM ε σ α} {s : σ} {Q : Except ε α → σ → Prop}
    (hthen : c → After x s Q) (helse : ¬ c → After y s Q) : After (if c then x else y) s Q := by
  split
  · rename_i h
    exact hthen h
  · rename_i h
    exact helse h

theorem After.mono {x : EStateM ε σ α} {s : σ} {P Q : Except ε α → σ → Prop} (h : After x s P)
    (hpq : ∀ result s', P result s' → Q result s') : After x s Q := by
  unfold After at h ⊢
  split at h <;> exact hpq _ _ h

theorem After.of_ok {x : EStateM ε σ α} {s s' : σ} {a : α} {Q : Except ε α → σ → Prop}
    (h : After x s Q) (hx : x s = .ok a s') : Q (.ok a) s' := by
  unfold After at h
  rw [hx] at h
  exact h

theorem After.of_error {x : EStateM ε σ α} {s s' : σ} {e : ε} {Q : Except ε α → σ → Prop}
    (h : After x s Q) (hx : x s = .error e s') : Q (.error e) s' := by
  unfold After at h
  rw [hx] at h
  exact h

theorem After.and {x : EStateM ε σ α} {s : σ} {P Q : Except ε α → σ → Prop} (hp : After x s P)
    (hq : After x s Q) : After x s fun result s' => P result s' ∧ Q result s' := by
  unfold After at hp hq ⊢
  cases hx : x s <;> rw [hx] at hp hq <;> exact ⟨hp, hq⟩

theorem after_bind_of_ok {x : EStateM ε σ α} {f : α → EStateM ε σ β} {s s' : σ} {a : α}
    {Q : Except ε β → σ → Prop} (hx : x s = .ok a s') (hf : After (f a) s' Q) : After (x >>= f) s Q := by
  have hbind : (x >>= f) s = f a s' := by simp [Bind.bind, EStateM.bind, hx]
  unfold After at hf ⊢
  rw [hbind]
  exact hf

theorem After.bind {x : EStateM ε σ α} {f : α → EStateM ε σ β} {s : σ} {P : Except ε α → σ → Prop}
    {Q : Except ε β → σ → Prop} (hx : After x s P) (hok : ∀ a s', P (.ok a) s' → After (f a) s' Q)
    (herror : ∀ e s', P (.error e) s' → Q (.error e) s') : After (x >>= f) s Q := by
  unfold After at hx
  split at hx
  · rename_i a s' hxs
    exact after_bind_of_ok hxs (hok a s' hx)
  · rename_i e s' hxs
    exact after_of_error (by simp [Bind.bind, EStateM.bind, hxs]) (herror e s' hx)

theorem Gives.after {x : EStateM ε σ α} {s : σ} {P : α → σ → Prop} {Q : Except ε α → σ → Prop}
    (h : Gives x s P) (hq : ∀ a s', P a s' → Q (.ok a) s') : After x s Q := by
  obtain ⟨a, s', hx, hp⟩ := h
  exact after_of_ok hx (hq a s' hp)

theorem Gives.mono {x : EStateM ε σ α} {s : σ} {P P' : α → σ → Prop} (h : Gives x s P)
    (hp : ∀ a s', P a s' → P' a s') : Gives x s P' := by
  obtain ⟨a, s', hx, ha⟩ := h
  exact ⟨a, s', hx, hp a s' ha⟩

theorem Gives.bind_after {x : EStateM ε σ α} {f : α → EStateM ε σ β} {s : σ} {P : α → σ → Prop}
    {Q : Except ε β → σ → Prop} (hx : Gives x s P) (hf : ∀ a s', P a s' → After (f a) s' Q) :
    After (x >>= f) s Q := by
  obtain ⟨a, s', hxs, hp⟩ := hx
  exact after_bind_of_ok hxs (hf a s' hp)

theorem Gives.bind {x : EStateM ε σ α} {f : α → EStateM ε σ β} {s : σ} {P : α → σ → Prop}
    {P' : β → σ → Prop} (hx : Gives x s P) (hf : ∀ a s', P a s' → Gives (f a) s' P') :
    Gives (x >>= f) s P' := by
  obtain ⟨a, s', hxs, hp⟩ := hx
  obtain ⟨b, s'', hfs, hp'⟩ := hf a s' hp
  exact ⟨b, s'', by simp [Bind.bind, EStateM.bind, hxs, hfs], hp'⟩

theorem gives_eq_of_after {x : EStateM ε σ α} {s : σ} {a : α} {P : σ → Prop}
    (h : After x s fun result s' => result = .ok a ∧ P s') : Gives x s fun b s' => b = a ∧ P s' := by
  unfold After at h
  split at h
  · rename_i b s' hx
    exact ⟨b, s', hx, Except.ok.inj h.1, h.2⟩
  · cases h.1

theorem gives_of_after {x : EStateM ε σ α} {s : σ} {a : α} {P : σ → Prop}
    (h : After x s fun result s' => result = .ok a ∧ P s') : Gives x s fun _ s' => P s' :=
  (gives_eq_of_after h).mono fun _ _ h' => h'.2

theorem gives_pure {a : α} {s : σ} {P : α → σ → Prop} (h : P a s) :
    Gives (pure a : EStateM ε σ α) s P := ⟨a, s, rfl, h⟩

theorem after_left {x : EStateM ε σ α} {s : σ} {Q : σ → Prop} :
    After x s (fun _ s' => Q s') ↔ Q (left x s) := by
  unfold After left
  split <;> rfl

end PrimaryElection
