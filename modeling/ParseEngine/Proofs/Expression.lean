import ParseEngine.Proofs.Script

namespace ParseEngine

inductive Expr.Part : Expr → Expr → Prop
  | adapt {adapter : Adapter} {p : Expr} : Part p (.adapt adapter p)
  | chain {p : Expr} {next : Value → Expr} : Part p (.chain p next)
  | next {p : Expr} {next : Value → Expr} (v : Value) : Part (next v) (.chain p next)
  | pairFirst {a b : Expr} : Part a (.pair a b)
  | pairSecond {a b : Expr} : Part b (.pair a b)
  | orElseFirst {a b : Expr} : Part a (.orElse a b)
  | orElseSecond {a b : Expr} : Part b (.orElse a b)
  | many {required : Bool} {p : Expr} : Part p (.many required p)
  | count {n : Nat} {p : Expr} : Part p (.count n p)
  | item {required : Bool} {item separator : Expr} : Part item (.sepBy required item separator)
  | separator {required : Bool} {item separator : Expr} : Part separator (.sepBy required item separator)
  | term {term op : Expr} {f : Value → Value → Value → Value} : Part term (.foldLeft term op f)
  | op {term op : Expr} {f : Value → Value → Value → Value} : Part op (.foldLeft term op f)
  | sequence {parts : List Expr} {p : Expr} (member : p ∈ parts) : Part p (.sequence parts)
  | choice {alternatives : List Expr} {p : Expr} (member : p ∈ alternatives) : Part p (.choice alternatives)
  | detached {p : Expr} : Part p (.detached p)
  | steps {parts : List Expr} {script : List Stmt} {p : Expr} (member : p ∈ parts) : Part p (.steps parts script)
  | intercept {interceptor : Interceptor} {p : Expr} : Part p (.intercept interceptor p)

/-- Running the first expression may run the second. -/
inductive Grammar.Uses (g : Grammar) : Expr → Expr → Prop
  | self (e : Expr) : Uses g e e
  | part {p e e' : Expr} (part : p.Part e) (rest : Uses g p e') : Uses g e e'
  | body {r : Nat} {rule : Rule} {e' : Expr} (found : g.rules[r]? = some rule) (rest : Uses g rule.body e') :
      Uses g (.rule r) e'

theorem Grammar.Uses.closed {g : Grammar} {S : Expr → Prop} (parts : ∀ p e, p.Part e → S e → S p)
    (bodies : ∀ (r : Nat) (rule : Rule), g.rules[r]? = some rule → S rule.body) {e e' : Expr} (uses : g.Uses e e')
    (holds : S e) : S e' := by
  induction uses with
  | self e => exact holds
  | part part _ ih => exact ih (parts _ _ part holds)
  | body found _ ih => exact ih (bodies _ _ found)

def Grammar.InterceptFree (g : Grammar) (e : Expr) : Prop :=
  ∀ interceptor p, ¬g.Uses e (.intercept interceptor p)

namespace Grammar.InterceptFree
variable {g : Grammar} {e p : Expr}

theorem part (free : g.InterceptFree e) (part : p.Part e) : g.InterceptFree p :=
  fun interceptor q uses => free interceptor q (.part part uses)

theorem body {r : Nat} {rule : Rule} (free : g.InterceptFree (.rule r)) (found : g.rules[r]? = some rule) :
    g.InterceptFree rule.body :=
  fun interceptor q uses => free interceptor q (.body found uses)

end Grammar.InterceptFree

namespace Expr

mutual
theorem part_acc : (e : Expr) → Acc Part e
  | .prim p => ⟨_, fun _ part => nomatch part⟩
  | .adapt adapter p => ⟨_, fun _ part => by cases part; exact part_acc p⟩
  | .chain p next => ⟨_, fun _ part => by
      cases part with
      | chain => exact part_acc p
      | next v => exact part_acc (next v)⟩
  | .pair a b => ⟨_, fun _ part => by
      cases part with
      | pairFirst => exact part_acc a
      | pairSecond => exact part_acc b⟩
  | .orElse a b => ⟨_, fun _ part => by
      cases part with
      | orElseFirst => exact part_acc a
      | orElseSecond => exact part_acc b⟩
  | .many required p => ⟨_, fun _ part => by cases part; exact part_acc p⟩
  | .count n p => ⟨_, fun _ part => by cases part; exact part_acc p⟩
  | .sepBy required item separator => ⟨_, fun _ part => by
      cases part with
      | item => exact part_acc item
      | separator => exact part_acc separator⟩
  | .foldLeft term op f => ⟨_, fun _ part => by
      cases part with
      | term => exact part_acc term
      | op => exact part_acc op⟩
  | .sequence parts => ⟨_, fun _ part => by
      cases part with
      | sequence member => exact parts_acc parts _ member⟩
  | .choice alternatives => ⟨_, fun _ part => by
      cases part with
      | choice member => exact parts_acc alternatives _ member⟩
  | .rule r => ⟨_, fun _ part => nomatch part⟩
  | .detached p => ⟨_, fun _ part => by cases part; exact part_acc p⟩
  | .steps parts script => ⟨_, fun _ part => by
      cases part with
      | steps member => exact parts_acc parts _ member⟩
  | .intercept interceptor p => ⟨_, fun _ part => by cases part; exact part_acc p⟩

theorem parts_acc : (es : List Expr) → ∀ e ∈ es, Acc Part e
  | [], _, member => nomatch member
  | p :: rest, e, member => by
      rcases List.mem_cons.1 member with same | member
      · exact same ▸ part_acc p
      · exact parts_acc rest e member
end

def isComposite : Expr → Bool
  | .rule _ | .intercept .. => false
  | _ => true

def routine (describe : Expr → String) (fuel : Nat) (c : Cursor) : Expr → Routine Outcome
  | .prim p => fun _ s => do return (← p.run c, s)
  | .adapt adapter p => fun run => Runner.adapt adapter (run p) c
  | .chain p next => fun run => (run p).andThen (fun v => run (next v)) c
  | .pair a b => fun run => Runner.pair (run a) (run b) c
  | .orElse a b => fun run => (run a).orElse (run b) c
  | .many required p => fun run => Runner.many required fuel (run p) c
  | .count n p => fun run => Runner.count n (run p) c
  | .sepBy required item separator => fun run => Runner.sepBy required fuel (run item) (run separator) c
  | .foldLeft term op f => fun run => Runner.foldLeft fuel (run term) (run op) f c
  | .sequence parts => fun run => Runner.sequence (parts.map run) c
  | .choice alternatives => fun run => Runner.choice (alternatives.map run) c
  | .detached p => fun run => Runner.detached (run p) c
  | .steps parts script => fun run => Script.run fuel (Routine.partsOf describe parts run) script c
  | .rule _ | .intercept .. => fun _ => Runner.exhausted c

def isBounded : Expr → Bool
  | .foldLeft .. | .intercept .. => false
  | .steps _ script => Script.isLoopFree script
  | _ => true

def scriptSize : Expr → Nat
  | .steps _ script => Script.size script
  | _ => 0

mutual
/-- Whether all loops in the expression end by themselves, where continuations, which cannot be looked into, do
not count. -/
def isSimple : Expr → Bool
  | .prim _ | .rule _ => true
  | .adapt _ p | .many _ p | .count _ p | .detached p => p.isSimple
  | .pair a b | .orElse a b | .sepBy _ a b => a.isSimple && b.isSimple
  | .sequence parts | .choice parts => areSimple parts
  | .steps parts script => Script.isLoopFree script && areSimple parts
  | .chain .. | .foldLeft .. | .intercept .. => false

def areSimple : List Expr → Bool
  | [] => true
  | p :: rest => p.isSimple && areSimple rest
end

theorem isSimple_of_mem {parts : List Expr} (simple : areSimple parts) {p : Expr} (member : p ∈ parts) :
    p.isSimple := by
  induction parts with
  | nil => cases member
  | cons q rest ih =>
      simp only [areSimple, Bool.and_eq_true] at simple
      rcases List.mem_cons.1 member with rfl | member
      · exact simple.1
      · exact ih simple.2 member

theorem Part.isSimple {p e : Expr} (part : p.Part e) (simple : e.isSimple) : p.isSimple := by
  cases part <;> simp only [Expr.isSimple, Bool.and_eq_true, Bool.false_eq_true] at simple
  case pairFirst | orElseFirst | item => exact simple.1
  case pairSecond | orElseSecond | separator => exact simple.2
  case sequence member | choice member => exact isSimple_of_mem simple member
  case steps member => exact isSimple_of_mem simple.2 member
  all_goals exact simple

theorem isBounded_of_isSimple {e : Expr} (simple : e.isSimple) : e.isBounded := by
  cases e <;> simp_all [isSimple, isBounded]

end Expr

theorem Grammar.bounded_of_isSimple {g : Grammar} (rules : g.rules.all (·.body.isSimple)) {e e' : Expr}
    (simple : e.isSimple) (uses : g.Uses e e') : e'.isBounded := by
  refine Expr.isBounded_of_isSimple (uses.closed (fun _ _ part => part.isSimple) (fun r rule found => ?_) simple)
  exact List.all_eq_true.1 rules rule (List.mem_of_getElem? found)

theorem Grammar.InterceptFree.of_isSimple {g : Grammar} (rules : g.rules.all (·.body.isSimple)) {e : Expr}
    (simple : e.isSimple) : g.InterceptFree e :=
  fun _ _ uses => absurd (bounded_of_isSimple rules simple uses) Bool.false_ne_true

theorem Grammar.run_composite (g : Grammar) {e : Expr} (composite : e.isComposite) (fuel : Nat) (c : Cursor) :
    g.run (fuel + 1) e c = e.routine (Expr.description g.rules) fuel c (g.run fuel) := by
  cases e with
  | rule r => cases composite
  | intercept interceptor p => cases composite
  | _ => rfl

section Rule
variable {g : Grammar} {r : Nat} {rule : Rule} (found : g.rules[r]? = some rule) (fuel : Nat)

theorem Grammar.run_missing (missing : g.rules[r]? = none) :
    g.run (fuel + 1) (.rule r) = fun c s => do return (← Prim.orphan.run c, s) := by
  simp only [Grammar.run, missing]

theorem Grammar.run_missing_eq_ok (missing : g.rules[r]? = none) {c : Cursor} {s t : Session} {o : Outcome} :
    g.run (fuel + 1) (.rule r) c s = .ok (o, t) ↔ Prim.orphan.run c = .ok o ∧ t = s := by
  rw [run_missing fuel missing]
  constructor
  · intro ran
    obtain ⟨o', failed, result⟩ := bind_eq_ok.1 ran
    cases result
    exact ⟨failed, rfl⟩
  · rintro ⟨failed, rfl⟩
    exact bind_eq_ok.2 ⟨o, failed, rfl⟩

include found

theorem Grammar.run_plain (mode : rule.mode = .plain) : g.run (fuel + 1) (.rule r) = g.run fuel rule.body := by
  simp only [Grammar.run, found, mode, Runner.inMode]

theorem Grammar.run_memo (mode : rule.mode = .memo) :
    g.run (fuel + 1) (.rule r) = .memo (.rule r) (g.run fuel rule.body) := by
  simp only [Grammar.run, found, mode, Runner.inMode]

theorem Grammar.run_leftRecursive (mode : rule.mode = .leftRecursive) :
    g.run (fuel + 1) (.rule r) = .leftRecursive (.rule r) rule.title (g.run fuel rule.body) := by
  simp only [Grammar.run, found, mode, Runner.inMode]

end Rule

theorem Expr.routine_orderly {D : Discipline} {e : Expr} (composite : e.isComposite)
    (parts : ∀ p, p.Part e → D.parts p) (describe : Expr → String) {fuel : Nat}
    (enough : D.strict → e.isBounded ∧ Text.byteLength D.setting.text < fuel ∧ e.scriptSize < fuel)
    {c : Cursor} (here : D.Allows c) : Routine.Orderly D D.Gives (e.routine describe fuel c) := by
  have rounds : D.strict → Text.byteLength D.setting.text - c.index < fuel := fun strict =>
    Nat.lt_of_le_of_lt (Nat.sub_le _ _) (enough strict).2.1
  cases e with
  | prim p =>
      obtain ⟨o, defined, follows⟩ := p.run_follows here.fits
      exact .lift ⟨o, defined, here.gives follows⟩
  | adapt adapter p => exact .adapt (parts _ .adapt) here adapter
  | chain p next =>
      refine .andThen (parts _ .chain) here fun v d later _ => ?_
      have orderly := Routine.Orderly.run (parts _ (.next v)) later
      exact orderly.weaken fun o follows => later.gives follows
  | pair a b => exact .pair (parts _ .pairFirst) (parts _ .pairSecond) here
  | orElse a b => exact .orElse (parts _ .orElseFirst) (parts _ .orElseSecond) here
  | many required p => exact .many (parts _ .many) required fuel [] here rounds
  | count n p => exact .count (parts _ .count) n [] here
  | sepBy required item separator =>
      exact .sepBy (parts _ .item) (parts _ .separator) required fuel here rounds
  | foldLeft term op f =>
      have lossy : ¬D.strict := fun strict => absurd (enough strict).1 Bool.false_ne_true
      exact .foldLeft (parts _ .term) (parts _ .op) f fuel lossy here
  | sequence es => exact .sequence (fun p member => parts p (.sequence member)) [] here
  | choice es =>
      refine .choice (fun p member => parts p (.choice member)) (fun failure member => ?_) here
      exact absurd member List.not_mem_nil
  | rule r => cases composite
  | detached p => exact .detached (parts _ .detached) here
  | steps es script =>
      exact .script describe (fun p member => parts p (.steps member)) fuel script
        (fun strict => ⟨(enough strict).1, (enough strict).2.2⟩) here
  | intercept interceptor p => cases composite

abbrev Expr.discipline (e : Expr) (st : Setting) (c : Cursor) : Discipline :=
  ⟨st, c.index, fun p => p.Part e, False⟩

theorem Expr.routine_disciplined {e : Expr} (composite : e.isComposite) {st : Setting} {c : Cursor} (fits : c.Fits st)
    (describe : Expr → String) (fuel : Nat) :
    Routine.Orderly (e.discipline st c) (e.discipline st c).Gives (e.routine describe fuel c) :=
  routine_orderly composite (fun _ part => part) describe False.elim ⟨fits, Nat.le_refl _⟩

/-- What holds of an expression without interceptors, whatever the fuel, given what holds with less fuel of its parts or
of the body of its rule. -/
theorem Grammar.InterceptFree.induct {g : Grammar} {motive : (fuel : Nat) → (e : Expr) → g.InterceptFree e → Prop}
    (zero : ∀ e free, motive 0 e free)
    (composite : ∀ fuel e free, e.isComposite → (∀ p (part : p.Part e), motive fuel p (free.part part)) →
      motive (fuel + 1) e free)
    (missing : ∀ fuel r free, g.rules[r]? = none → motive (fuel + 1) (.rule r) free)
    (plain : ∀ fuel r rule free (found : g.rules[r]? = some rule), rule.mode = .plain →
      motive fuel rule.body (free.body found) → motive (fuel + 1) (.rule r) free)
    (memo : ∀ fuel r rule free (found : g.rules[r]? = some rule), rule.mode = .memo →
      motive fuel rule.body (free.body found) → motive (fuel + 1) (.rule r) free)
    (leftRecursive : ∀ fuel r rule free (found : g.rules[r]? = some rule), rule.mode = .leftRecursive →
      motive fuel rule.body (free.body found) → motive (fuel + 1) (.rule r) free)
    (fuel : Nat) (e : Expr) (free : g.InterceptFree e) : motive fuel e free := by
  induction fuel generalizing e with
  | zero => exact zero e free
  | succ fuel ih =>
      by_cases compound : e.isComposite = true
      · exact composite fuel e free compound fun p part => ih p (free.part part)
      · cases e with
        | rule r =>
            cases found : g.rules[r]? with
            | none => exact missing fuel r free found
            | some rule =>
                have body := ih rule.body (free.body found)
                cases mode : rule.mode with
                | plain => exact plain fuel r rule free found mode body
                | memo => exact memo fuel r rule free found mode body
                | leftRecursive => exact leftRecursive fuel r rule free found mode body
        | intercept interceptor p => exact absurd (.self _) (free interceptor p)
        | _ => exact absurd rfl compound

end ParseEngine
