import ParseEngine.Proofs.Fuel

namespace ParseEngine

abbrev Calling := Nat → Rule → Runner → Runner

/-- Runs an expression with the rules called in the given way, and without interceptors. -/
def Grammar.runCalling (g : Grammar) (call : Calling) : Nat → Expr → Runner
  | 0, _ => .exhausted
  | fuel + 1, .rule r =>
      match g.rules[r]? with
      | some rule => call r rule (g.runCalling call fuel rule.body)
      | none => fun c s => do return (← Prim.orphan.run c, s)
  | fuel + 1, e => fun c => e.routine (Expr.description g.rules) fuel c (g.runCalling call fuel)

def Calling.Monotone (call : Calling) : Prop :=
  ∀ (r : Nat) (rule : Rule) (p p' : Runner), p.Below p' → (call r rule p).Below (call r rule p')

namespace Grammar
variable {g : Grammar} {call : Calling} {fuel fuel' : Nat} {r : Nat} {rule : Rule} {e : Expr} {c : Cursor}
  {s : Session}

theorem runCalling_composite (composite : e.isComposite) : g.runCalling call (fuel + 1) e c =
    e.routine (Expr.description g.rules) fuel c (g.runCalling call fuel) := by
  cases e with
  | rule r => cases composite
  | _ => rfl

theorem runCalling_rule (found : g.rules[r]? = some rule) :
    g.runCalling call (fuel + 1) (.rule r) = call r rule (g.runCalling call fuel rule.body) := by
  simp only [runCalling, found]

theorem runCalling_missing (missing : g.rules[r]? = none) :
    g.runCalling call (fuel + 1) (.rule r) = fun c s => do return (← Prim.orphan.run c, s) := by
  simp only [runCalling, missing]

theorem runCalling_below (monotone : call.Monotone) (le : fuel ≤ fuel') :
    Engine.Below (g.runCalling call fuel) (g.runCalling call fuel') := by
  induction fuel generalizing fuel' with
  | zero => exact fun e c s => .exhausted _
  | succ fuel ih =>
      obtain ⟨more, rfl⟩ := Nat.exists_eq_add_of_le' le
      have below := ih (Nat.le_add_left fuel more)
      intro e c s
      rw [← Nat.add_assoc]
      by_cases composite : e.isComposite = true
      · rw [runCalling_composite composite, runCalling_composite composite]
        exact e.routine_below _ below (Nat.le_add_left fuel more) c s
      · cases e with
        | rule r =>
            cases found : g.rules[r]? with
            | none =>
                rw [runCalling_missing found, runCalling_missing found]
                exact .refl _
            | some rule =>
                rw [runCalling_rule found, runCalling_rule found]
                exact monotone r rule _ _ (below rule.body) c s
        | intercept interceptor p => exact .exhausted _
        | _ => exact absurd rfl composite

theorem runCalling_mono (monotone : call.Monotone) (le : fuel ≤ fuel') {result : Outcome × Session}
    (ran : g.runCalling call fuel e c s = .ok result) : g.runCalling call fuel' e c s = .ok result :=
  runCalling_below monotone le e c s result ran

theorem runCalling_below_run (calls : ∀ (r : Nat) (rule : Rule) (p p' : Runner), p.Below p' →
    (call r rule p).Below (.inMode (.rule r) rule.title p' rule.mode)) :
    Engine.Below (g.runCalling call fuel) (g.run fuel) := by
  induction fuel with
  | zero => exact fun e c s => .exhausted _
  | succ fuel ih =>
      intro e c s
      by_cases composite : e.isComposite = true
      · rw [runCalling_composite composite, g.run_composite composite]
        exact e.routine_below _ ih (Nat.le_refl fuel) c s
      · cases e with
        | rule r =>
            cases found : g.rules[r]? with
            | none =>
                rw [runCalling_missing found, run_missing fuel found]
                exact .refl _
            | some rule =>
                rw [runCalling_rule found]
                simp only [run, found]
                exact calls r rule _ _ (ih rule.body) c s
        | intercept interceptor p => exact .exhausted _
        | _ => exact absurd rfl composite

end Grammar
end ParseEngine
