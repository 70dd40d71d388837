/-!
# Results that may be errors

Two computations in sequence succeed exactly if both do, and a list of
computations if each of them does.  Otherwise the error is that of the first
one that fails.  These lemmas take a `do` block apart, so that proofs about it
need not unfold how errors are passed on.
-/

namespace KeysetBundle

variable {α β γ ε : Type}

/-- A sequence of two computations succeeds if the first one succeeds and the second one does so
on its result. -/
theorem bind_eq_ok {x : Except ε α} {f : α → Except ε β} {b : β} :
    (x >>= f) = .ok b ↔ ∃ a, x = .ok a ∧ f a = .ok b := by
  cases x with
  | error e => simp [bind, Except.bind]
  | ok a => simp [bind, Except.bind]

/-- A sequence of two computations fails with the error of the first one, or with that of the second
one if the first one succeeds. -/
theorem bind_eq_error {x : Except ε α} {f : α → Except ε β} {e : ε} :
    (x >>= f) = .error e ↔ x = .error e ∨ ∃ a, x = .ok a ∧ f a = .error e := by
  cases x with
  | error e' => simp [bind, Except.bind]
  | ok a => simp [bind, Except.bind]

theorem map_eq_ok {x : Except ε α} {f : α → β} {b : β} :
    x.map f = .ok b ↔ ∃ a, x = .ok a ∧ f a = b := by
  cases x with
  | error e => simp [Except.map]
  | ok a => simp [Except.map]

theorem map_eq_error {x : Except ε α} {f : α → β} {e : ε} :
    x.map f = .error e ↔ x = .error e := by
  cases x with
  | error e' => simp [Except.map]
  | ok a => simp [Except.map]

theorem toOption_map (x : Except ε α) (f : α → β) : (x.map f).toOption = x.toOption.map f := by
  cases x <;> rfl

theorem toOption_eq_some {x : Except ε α} {a : α} : x.toOption = some a ↔ x = .ok a := by
  cases x with
  | error e => simp [Except.toOption]
  | ok b => simp [Except.toOption]

theorem toOption_eq_none {x : Except ε α} : x.toOption = none ↔ ∃ e, x = .error e := by
  cases x with
  | error e => simp [Except.toOption]
  | ok b => simp [Except.toOption]

theorem mapM_cons_eq_ok {f : α → Except ε β} {a : α} {as : List α} {bs : List β} :
    (a :: as).mapM f = .ok bs ↔
      ∃ b bs', f a = .ok b ∧ as.mapM f = .ok bs' ∧ bs = b :: bs' := by
  rw [List.mapM_cons, bind_eq_ok]
  constructor
  · rintro ⟨b, hb, h⟩
    obtain ⟨bs', hbs', h⟩ := bind_eq_ok.1 h
    cases h
    exact ⟨b, bs', hb, hbs', rfl⟩
  · rintro ⟨b, bs', hb, hbs', rfl⟩
    exact ⟨b, hb, bind_eq_ok.2 ⟨bs', hbs', rfl⟩⟩

/-- A list of computations succeeds exactly if each of them does. -/
theorem exists_mapM_iff {f : α → Except ε β} {as : List α} :
    (∃ bs, as.mapM f = .ok bs) ↔ ∀ a ∈ as, ∃ b, f a = .ok b := by
  induction as with
  | nil =>
      constructor
      · intro _ a ha
        cases ha
      · intro _
        exact ⟨[], rfl⟩
  | cons a as ih =>
      constructor
      · intro ⟨bs, h⟩ x hx
        obtain ⟨b, bs', hb, hbs', -⟩ := mapM_cons_eq_ok.1 h
        rcases List.mem_cons.1 hx with rfl | hx
        · exact ⟨b, hb⟩
        · exact ih.1 ⟨bs', hbs'⟩ x hx
      · intro h
        obtain ⟨b, hb⟩ := h a (by simp)
        obtain ⟨bs, hbs⟩ := ih.2 fun x hx => h x (by simp [hx])
        exact ⟨b :: bs, mapM_cons_eq_ok.2 ⟨b, bs, hb, hbs, rfl⟩⟩

/-- A list of computations fails exactly if one of them does and all before it succeed. The error is
that of the computation. -/
theorem mapM_eq_error {f : α → Except ε β} {as : List α} {e : ε} :
    as.mapM f = .error e ↔ ∃ before a after, as = before ++ a :: after ∧
      (∀ x ∈ before, ∃ b, f x = .ok b) ∧ f a = .error e := by
  induction as with
  | nil =>
      constructor
      · intro h
        cases h
      · intro ⟨before, a, after, has, _⟩
        simp at has
  | cons a as ih =>
      rw [List.mapM_cons, bind_eq_error]
      constructor
      · rintro (ha | ⟨b, hb, h⟩)
        · exact ⟨[], a, as, rfl, by simp, ha⟩
        · rcases bind_eq_error.1 h with hrest | ⟨bs, -, h⟩
          · obtain ⟨before, x, after, rfl, hbefore, hx⟩ := ih.1 hrest
            refine ⟨a :: before, x, after, rfl, ?_, hx⟩
            intro y hy
            rcases List.mem_cons.1 hy with rfl | hy
            · exact ⟨b, hb⟩
            · exact hbefore y hy
          · cases h
      · intro ⟨before, x, after, has, hbefore, hx⟩
        cases before with
        | nil =>
            cases has
            exact .inl hx
        | cons first before =>
            cases has
            obtain ⟨b, hb⟩ := hbefore a (by simp)
            have hrest := ih.2 ⟨before, x, after, rfl, fun y hy => hbefore y (by simp [hy]), hx⟩
            exact .inr ⟨b, hb, bind_eq_error.2 (.inl hrest)⟩

/-- What holds of the result of every successful step holds of all results. -/
theorem forall_mem_of_mapM {f : α → Except ε β} {P : α → Prop} {Q : β → Prop}
    (hstep : ∀ a b, P a → f a = .ok b → Q b) {as : List α} {bs : List β}
    (has : ∀ a ∈ as, P a) (h : as.mapM f = .ok bs) : ∀ b ∈ bs, Q b := by
  induction as generalizing bs with
  | nil =>
      cases h
      intro b hb
      cases hb
  | cons a as ih =>
      obtain ⟨b, bs', hb, hbs', rfl⟩ := mapM_cons_eq_ok.1 h
      intro x hx
      rcases List.mem_cons.1 hx with rfl | hx
      · exact hstep a x (has a (by simp)) hb
      · exact ih (fun a ha => has a (by simp [ha])) hbs' x hx

/-- Every result is the result of one of the steps. -/
theorem exists_of_mem_mapM {f : α → Except ε β} {as : List α} {bs : List β}
    (h : as.mapM f = .ok bs) : ∀ b ∈ bs, ∃ a ∈ as, f a = .ok b := by
  induction as generalizing bs with
  | nil =>
      cases h
      intro b hb
      cases hb
  | cons a as ih =>
      obtain ⟨b, bs', hb, hbs', rfl⟩ := mapM_cons_eq_ok.1 h
      intro x hx
      rcases List.mem_cons.1 hx with rfl | hx
      · exact ⟨a, by simp, hb⟩
      · obtain ⟨a', ha', hx⟩ := ih hbs' x hx
        exact ⟨a', by simp [ha'], hx⟩

/-- What every step keeps is the same for the list and its results. -/
theorem map_eq_of_mapM {f : α → Except ε β} {g : β → γ} {k : α → γ}
    (hstep : ∀ a b, f a = .ok b → g b = k a) {as : List α} {bs : List β}
    (h : as.mapM f = .ok bs) : bs.map g = as.map k := by
  induction as generalizing bs with
  | nil =>
      cases h
      rfl
  | cons a as ih =>
      obtain ⟨b, bs', hb, hbs', rfl⟩ := mapM_cons_eq_ok.1 h
      rw [List.map_cons, List.map_cons, hstep a b hb, ih hbs']

/-- Steps that take related results give lists of related results. -/
theorem exists_pairs {f : α → Except ε β} {g : α → Option γ} {R : β → γ → Prop} {as : List α}
    {bs : List β} (hstep : ∀ a ∈ as, ∀ b, f a = .ok b → ∃ c, g a = some c ∧ R b c)
    (h : as.mapM f = .ok bs) :
    ∃ pairs : List (β × γ), bs = pairs.map Prod.fst ∧ as.mapM g = some (pairs.map Prod.snd) ∧
      ∀ pair ∈ pairs, R pair.1 pair.2 := by
  induction as generalizing bs with
  | nil =>
      cases h
      exact ⟨[], rfl, rfl, by simp⟩
  | cons a as ih =>
      obtain ⟨b, bs', hb, hbs', rfl⟩ := mapM_cons_eq_ok.1 h
      obtain ⟨c, hc, hR⟩ := hstep a (by simp) b hb
      obtain ⟨pairs, rfl, hpairs, hall⟩ := ih (fun a ha => hstep a (by simp [ha])) hbs'
      refine ⟨(b, c) :: pairs, rfl, by simp [hc, hpairs], ?_⟩
      intro pair hpair
      rcases List.mem_cons.1 hpair with rfl | hpair
      · exact hR
      · exact hall pair hpair

/-- Whether two results are equal can be computed. -/
instance (priority := high) decidableEqExcept [DecidableEq ε] [DecidableEq α] :
    DecidableEq (Except ε α)
  | .ok a, .ok b => decidable_of_iff (a = b) ⟨congrArg _, Except.ok.inj⟩
  | .error e, .error f => decidable_of_iff (e = f) ⟨congrArg _, Except.error.inj⟩
  | .ok _, .error _ => .isFalse (fun h => nomatch h)
  | .error _, .ok _ => .isFalse (fun h => nomatch h)

/-! ## Renamed errors -/

/-- In a sequence the errors of both computations are renamed. -/
theorem mapError_bind {ε' : Type} (g : ε → ε') (x : Except ε α) (f : α → Except ε β) :
    (x >>= f).mapError g = (x.mapError g >>= fun a => (f a).mapError g) := by
  cases x <;> rfl

theorem mapError_mapM {ε' : Type} (g : ε → ε') (f : α → Except ε β) (as : List α) :
    (as.mapM f).mapError g = as.mapM fun a => (f a).mapError g := by
  induction as with
  | nil => rfl
  | cons a as ih =>
      rw [List.mapM_cons, List.mapM_cons, mapError_bind]
      congr 1
      funext b
      rw [mapError_bind, ih]
      rfl

end KeysetBundle
