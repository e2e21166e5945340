import Just1kBot.Lib.Transition

/-! A program among others.

    A program is a sequence of atomic statements: each updates the store, and what is left to run
    depends on the store it found. Between two statements the others change the store, one event
    after another. `Meets` is the weakest precondition of a program under this interference, and
    `meets_run` reads it off along every run: a program that came to its end ended as it says. -/

namespace Lib

/-- What is left to run: a value, or a statement that updates the store and goes on by the store it
    found. -/
inductive Program (σ α : Type)
  | done (a : α)
  | statement (update : σ → σ) (next : σ → Program σ α)

namespace Program
variable {σ ε α β : Type}

protected def bind : Program σ α → (α → Program σ β) → Program σ β
  | .done a, f => f a
  | .statement update next, f => .statement update fun s => (next s).bind f

instance : Monad (Program σ) where
  pure := .done
  bind := Program.bind

/-- A statement that updates the store and returns what it read in the store it found. -/
def access (update : σ → σ) (get : σ → α) : Program σ α := .statement update fun s => .done (get s)

/-- However the others change the store between the statements, the program ends as `Q` says. -/
def Meets (env : σ → ε → σ) (Q : α → σ → Prop) : Program σ α → σ → Prop
  | .done a, s => Q a s
  | .statement update next, s =>
    ∀ es : List ε, Meets env Q (next (run env s es)) (update (run env s es))

variable {env : σ → ε → σ} {Q : α → σ → Prop} {s : σ}

/-! ### Rules -/

/-- The rule for a program that is at its end. -/
theorem meets_done {a : α} (h : Q a s) : Meets env Q (.done a) s := h

/-- The rule for a statement: what the others preserve holds when it is taken. -/
theorem meets_statement {J : σ → Prop} {update : σ → σ} {next : σ → Program σ α}
    (hJ : ∀ s e, J s → J (env s e)) (hs : J s)
    (h : ∀ t, J t → Meets env Q (next t) (update t)) : Meets env Q (.statement update next) s :=
  fun es => h (run env s es) (run_inv env hJ es s hs)

/-- The rule for a program that another one follows. -/
theorem meets_bind {R : β → σ → Prop} {f : α → Program σ β} :
    ∀ {p : Program σ α} {s : σ}, Meets env (fun a t => Meets env R (f a) t) p s →
      Meets env R (p >>= f) s
  | .done _, _, h => h
  | .statement _ _, _, h => fun es => meets_bind (h es)

/-- A program that ends as `Q` says ends as anything weaker says. -/
theorem meets_mono {R : α → σ → Prop} (hQ : ∀ a t, Q a t → R a t) :
    ∀ {p : Program σ α} {s : σ}, Meets env Q p s → Meets env R p s
  | .done a, s, h => hQ a s h
  | .statement _ _, _, h => fun es => meets_mono hQ (h es)

/-- The rule for an access that the rest of the program follows. -/
theorem meets_access {J : σ → Prop} {R : β → σ → Prop} {update : σ → σ} {get : σ → α}
    {f : α → Program σ β} (hJ : ∀ s e, J s → J (env s e)) (hs : J s)
    (h : ∀ t, J t → Meets env R (f (get t)) (update t)) :
    Meets env R (access update get >>= f) s :=
  meets_statement hJ hs h

/-- What a program ends with stays so, whatever the others do before its next statement. -/
theorem meets_env (hQ : ∀ a t e, Q a t → Q a (env t e)) {p : Program σ α} (e : ε)
    (h : Meets env Q p s) : Meets env Q p (env s e) := by
  cases p with
  | done a => exact hQ a s e h
  | statement update next => exact fun es => h (e :: es)

end Program

/-! ### Runs -/

/-- A store with the program that runs on it. -/
structure Process (σ α : Type) where
  store : σ
  program : Program σ α

/-- What happens next: the program takes its next statement, or the others change the store. -/
inductive Move (ε : Type)
  | proceed
  | other (e : ε)

namespace Process
variable {σ ε α : Type} (env : σ → ε → σ)

def step (p : Process σ α) : Move ε → Process σ α
  | .other e => { p with store := env p.store e }
  | .proceed =>
    match p.program with
    | .done _ => p
    | .statement update next => { store := update p.store, program := next p.store }

variable {env} {Q : α → σ → Prop}

/-- A move keeps the precondition of what is left to run. -/
theorem meets_step (hQ : ∀ a t e, Q a t → Q a (env t e)) (p : Process σ α) (m : Move ε)
    (h : p.program.Meets env Q p.store) :
    (p.step env m).program.Meets env Q (p.step env m).store := by
  cases m with
  | other e => exact Program.meets_env hQ e h
  | proceed =>
    obtain ⟨store, program⟩ := p
    cases program with
    | done a => exact h
    | statement update next => exact h []

/-- A program that came to its end ended as its precondition says. -/
theorem meets_run (hQ : ∀ a t e, Q a t → Q a (env t e)) {p : Process σ α}
    (h : p.program.Meets env Q p.store) (ms : List (Move ε)) {a : α}
    (ha : (run (step env) p ms).program = .done a) : Q a (run (step env) p ms).store := by
  have hmeets := run_inv (step env) (I := fun p => p.program.Meets env Q p.store)
    (meets_step hQ) ms p h
  rw [ha] at hmeets
  exact hmeets

end Process

-- from here on a precondition is known by its rules only
attribute [irreducible] Program.Meets

end Lib
