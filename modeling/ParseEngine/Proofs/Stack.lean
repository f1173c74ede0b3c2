import ParseEngine.Proofs.Contract

namespace ParseEngine

structure Session.IsStack (s : Session) : Prop where
  depths : s.growing.reverse.map (·.2.depth) = List.range s.growing.length
  once : (s.growing.map Prod.fst).Nodup
  unknown : ∀ key growth, (key, growth) ∈ s.growing → s.memo.lookup key = none

namespace Session.IsStack
variable {s t : Session} {key : Key} {growth : Growth} {base : List (Key × Growth)}

theorem fresh (options : Options) (journal : Journal) : (Session.fresh options journal).IsStack where
  depths := rfl
  once := .nil
  unknown _ _ member := nomatch member

theorem congr (stack : s.IsStack) (memo : t.memo = s.memo) (growing : t.growing = s.growing) : t.IsStack :=
  ⟨growing ▸ stack.depths, growing ▸ stack.once, memo ▸ growing ▸ stack.unknown⟩

theorem begin (stack : s.IsStack) (idle : s.growing.lookup key = none) (unknown : s.memo.lookup key = none)
    (seed : Outcome) : (s.begin key seed).IsStack where
  depths := by simp [Session.begin, stack.depths, List.range_succ]
  once := by
    simp only [Session.begin, List.map_cons, List.nodup_cons]
    refine ⟨fun member => ?_, stack.once⟩
    obtain ⟨entry, member, same⟩ := List.mem_map.1 member
    exact not_mem_of_lookup idle member same
  unknown other growth member := by
    rcases List.mem_cons.1 member with same | member
    · cases same
      exact unknown
    · exact stack.unknown other growth member

theorem grow (stack : t.IsStack) (top : t.growing = (key, growth) :: base) (idle : base.lookup key = none)
    (seed : Outcome) : (t.grow key seed).IsStack := by
  have grown := grow_growing (o := seed) top idle
  constructor
  · have depths := stack.depths
    rw [top] at depths
    rw [grown]
    simpa using depths
  · have once := stack.once
    rw [top] at once
    rw [grown]
    exact once
  · intro other growth' member
    rcases mem_grow top idle member with same | member
    · cases same
      exact stack.unknown key growth (top ▸ List.mem_cons_self)
    · exact stack.unknown other growth' member

theorem finish (stack : t.IsStack) (before : s.IsStack) (top : t.growing = (key, growth) :: s.growing)
    (idle : s.growing.lookup key = none) : (t.finish key).IsStack := by
  have popped := finish_growing top idle
  refine ⟨popped ▸ before.depths, popped ▸ before.once, fun other growth' member => ?_⟩
  rw [popped] at member
  exact stack.unknown other growth' (top ▸ List.mem_cons_of_mem _ member)

theorem remember (stack : t.IsStack) (idle : ∀ growth, (key, growth) ∉ t.growing) (entry : Entry) :
    (t.remember key entry).2.IsStack := by
  refine ⟨?_, ?_, fun other growth member => ?_⟩
  · rw [remember_growing]
    exact stack.depths
  · rw [remember_growing]
    exact stack.once
  · rw [remember_growing] at member
    rw [lookup_remember, if_neg]
    · exact stack.unknown other growth member
    · rintro ⟨rfl, -⟩
      exact idle growth member

end Session.IsStack

inductive Grammar.Calls (g : Grammar) : Bool → Expr → Bool → Expr → Prop
  | self (b : Bool) (e : Expr) : Calls g b e b e
  | part {b b' : Bool} {p e e' : Expr} (attached : ∀ q, e ≠ .detached q) (part : p.Part e)
      (rest : Calls g b p b' e') : Calls g b e b' e'
  | detached {b b' : Bool} {p e' : Expr} (rest : Calls g false p b' e') : Calls g b (.detached p) b' e'
  | body {b b' : Bool} {r : Nat} {rule : Rule} {e' : Expr} (found : g.rules[r]? = some rule)
      (rest : Calls g b rule.body b' e') : Calls g b (.rule r) b' e'

/-- Every rule is called at cursors of its own kind, and no interceptor writes to the memo table. -/
structure Grammar.Regular (g : Grammar) (contextual : Nat → Bool) (b : Bool) (e : Expr) : Prop where
  kind : ∀ b' r, g.Calls b e b' (.rule r) → b' = contextual r
  unplanted : ∀ b' name label v asByte p, ¬g.Calls b e b' (.intercept (.put name label v asByte) p)

theorem Prim.Ends.context {p : Prim} {c : Cursor} {o : Outcome} (ends : p.Ends c o) :
    o.cursor.context.isSome = c.context.isSome := by
  cases ends with
  | success v context => exact context
  | failure message context shown => exact congrArg _ context
  | told context same => exact congrArg _ context

namespace Grammar
variable {g : Grammar} {contextual : Nat → Bool} {b b' : Bool} {e e' p : Expr} {r : Nat} {rule : Rule}

theorem Calls.trans {b'' : Bool} {e'' : Expr} (first : g.Calls b e b' e') (second : g.Calls b' e' b'' e'') :
    g.Calls b e b'' e'' := by
  induction first with
  | self b e => exact second
  | part attached part _ ih => exact .part attached part (ih second)
  | detached _ ih => exact .detached (ih second)
  | body found _ ih => exact .body found (ih second)

theorem Regular.called (regular : g.Regular contextual b e) (calls : g.Calls b e b' e') :
    g.Regular contextual b' e' where
  kind b'' r further := regular.kind b'' r (calls.trans further)
  unplanted b'' name label v asByte p further :=
    regular.unplanted b'' name label v asByte p (calls.trans further)

theorem Calls.uses (calls : g.Calls b e b' e') : g.Uses e e' := by
  induction calls with
  | self b e => exact .self e
  | part _ part _ ih => exact .part part ih
  | detached _ ih => exact .part .detached ih
  | body found _ ih => exact .body found ih

theorem Calls.without_context (calls : g.Calls b e b' e') (plain : b = false) : b' = false := by
  induction calls with
  | self b e => exact plain
  | part _ _ _ ih => exact ih plain
  | detached _ ih => exact ih rfl
  | body _ _ ih => exact ih plain

theorem Regular.plain (free : g.InterceptFree e) : g.Regular (fun _ => false) false e where
  kind _ _ calls := calls.without_context rfl
  unplanted _ _ _ _ _ _ calls := free _ _ calls.uses

structure Tidy (g : Grammar) (contextual : Nat → Bool) (s : Session) : Prop where
  stack : s.IsStack
  memo : ∀ r index entry, s.memo.lookup ⟨.rule r, index⟩ = some entry → (entry.outcome? (contextual r)).isSome
  growing : ∀ key growth, (key, growth) ∈ s.growing → ∃ r rule, key.parser = .rule r ∧ g.rules[r]? = some rule ∧
    rule.mode = .leftRecursive ∧ growth.seed.cursor.context.isSome = contextual r

def stacking (g : Grammar) (contextual : Nat → Bool) : Contract where
  allowed := g.Regular contextual
  place b c := c.context.isSome = b
  gives b o := o.cursor.context.isSome = b
  ready := g.Tidy contextual

theorem Regular.rule_kind (regular : g.Regular contextual b (.rule r)) : b = contextual r :=
  regular.kind b r (.self b _)

section Tidy
variable {s t : Session} {c : Cursor} {o : Outcome} {growth : Growth} {base : List (Key × Growth)}

theorem Tidy.inFlight (tidy : g.Tidy contextual s) {index : Nat} (member : (⟨.rule r, index⟩, growth) ∈ s.growing) :
    ∃ rule, g.rules[r]? = some rule ∧ rule.mode = .leftRecursive ∧
      growth.seed.cursor.context.isSome = contextual r := by
  obtain ⟨r', rule, same, found, mode, kind⟩ := tidy.growing _ _ member
  cases same
  exact ⟨rule, found, mode, kind⟩

theorem Tidy.unknown (tidy : g.Tidy contextual s) (kind : c.context.isSome = contextual r)
    (miss : (s.memo.lookup ⟨.rule r, c.index⟩).bind (·.outcome? c.context.isSome) = none) :
    s.memo.lookup ⟨.rule r, c.index⟩ = none := by
  cases known : s.memo.lookup ⟨.rule r, c.index⟩ with
  | none => rfl
  | some entry =>
      have readable := tidy.memo r c.index entry known
      rw [known, Option.bind_some, kind] at miss
      rw [miss] at readable
      cases readable

theorem Tidy.begin (tidy : g.Tidy contextual s) (found : g.rules[r]? = some rule) (mode : rule.mode = .leftRecursive)
    {index : Nat} (idle : s.growing.lookup ⟨.rule r, index⟩ = none) (unknown : s.memo.lookup ⟨.rule r, index⟩ = none)
    (kind : o.cursor.context.isSome = contextual r) : g.Tidy contextual (s.begin ⟨.rule r, index⟩ o) where
  stack := tidy.stack.begin idle unknown o
  memo := tidy.memo
  growing key growth member := by
    rcases List.mem_cons.1 member with same | member
    · cases same
      exact ⟨r, rule, rfl, found, mode, kind⟩
    · exact tidy.growing key growth member

theorem Tidy.grow (tidy : g.Tidy contextual t) {index : Nat}
    (top : t.growing = (⟨.rule r, index⟩, growth) :: base) (idle : base.lookup ⟨.rule r, index⟩ = none)
    (kind : o.cursor.context.isSome = contextual r) : g.Tidy contextual (t.grow ⟨.rule r, index⟩ o) where
  stack := tidy.stack.grow top idle o
  memo := tidy.memo
  growing key growth' member := by
    rcases Session.mem_grow top idle member with same | member
    · cases same
      obtain ⟨rule, found, mode, -⟩ := tidy.inFlight (top ▸ List.mem_cons_self)
      exact ⟨r, rule, rfl, found, mode, kind⟩
    · exact tidy.growing key growth' member

theorem Tidy.remember (tidy : g.Tidy contextual t) {index : Nat}
    (idle : ∀ growth, (⟨.rule r, index⟩, growth) ∉ t.growing) (kind : o.cursor.context.isSome = contextual r) :
    g.Tidy contextual (t.remember ⟨.rule r, index⟩ (.outcome o)).2 where
  stack := tidy.stack.remember idle _
  memo r' index' entry known := by
    rw [Session.lookup_remember] at known
    split at known
    · rename_i new
      cases new.1
      cases known
      simp [Entry.outcome?, kind]
    · exact tidy.memo r' index' entry known
  growing key growth member := by
    rw [Session.remember_growing] at member
    exact tidy.growing key growth member

end Tidy

theorem stacking_lawful (g : Grammar) (contextual : Nat → Bool) : (g.stacking contextual).Lawful g where
  part regular attached part := regular.called (.part attached part (.self _ _))
  detached regular := regular.called (.detached (.self _ _))
  body regular found := regular.called (.body found (.self _ _))
  success := Iff.rfl
  failed kind _ := kind
  reworded _ kind := kind
  rebuilt kind _ := kind
  prim _ kind ran := (Prim.run_ends ran).context.trans kind
  pattern _ kind ran := (Prim.run_ends ran).context.trans kind
  dropped _ := rfl
  restored {b c o} kind _ := by cases o <;> exact kind
  fresh journal := ⟨.fresh {} journal, (fun _ _ _ known => nomatch known), fun _ _ member => nomatch member⟩
  tables tidy memo growing := ⟨tidy.stack.congr memo growing, memo ▸ tidy.memo, growing ▸ tidy.growing⟩
  hit {b r c s entry o} _ kind _ _ read := by
    rw [Entry.eq_of_outcome? read, Entry.outcome?] at read
    split at read
    · rename_i same
      exact same.trans kind
    · cases read
  seed regular _ tidy inFlight := by
    obtain ⟨-, -, -, kind⟩ := tidy.inFlight (Session.mem_of_lookup inFlight)
    exact kind.trans regular.rule_kind.symm
  begins regular found mode place tidy idle miss kind :=
    tidy.begin found mode idle (tidy.unknown (place.trans regular.rule_kind) miss) (kind.trans regular.rule_kind)
  grows regular _ tidy top idle kind := tidy.grow top idle (kind.trans regular.rule_kind)
  finishes tidy before top idle :=
    ⟨tidy.stack.finish before.stack top idle, tidy.memo, Session.finish_growing top idle ▸ before.growing⟩
  remembers {b r rule c t o} regular found _ tidy mode kind := by
    refine tidy.remember (fun growth member => ?_) (kind.trans regular.rule_kind)
    rcases mode with memo | ⟨-, idle⟩
    · obtain ⟨rule', found', mode', -⟩ := tidy.inFlight member
      rw [found] at found'
      cases found'
      rw [memo] at mode'
      cases mode'
    · exact Session.not_mem_of_lookup idle member rfl
  planted regular _ _ := absurd (.self _ _) (regular.unplanted _ _ _ _ _ _)

inductive Visited (g : Grammar) (contextual : Nat → Bool) : Session → Prop
  | fresh (options : Options) (journal : Journal) : Visited g contextual (.fresh options journal)
  | noted {s t : Session} (before : Visited g contextual s) (memo : t.memo = s.memo) (growing : t.growing = s.growing) :
      Visited g contextual t
  | ran {s t : Session} {e : Expr} {c : Cursor} {fuel : Nat} {o : Outcome} (before : Visited g contextual s)
      (regular : g.Regular contextual c.context.isSome e) (ran : g.run fuel e c s = .ok (o, t)) :
      Visited g contextual t
  | begun {s : Session} {r : Nat} {rule : Rule} {c : Cursor} {rest : List Char} (before : Visited g contextual s)
      (regular : g.Regular contextual c.context.isSome (.rule r)) (found : g.rules[r]? = some rule)
      (mode : rule.mode = .leftRecursive) (remains : c.remaining = .ok rest)
      (idle : s.growing.lookup ⟨.rule r, c.index⟩ = none)
      (miss : (s.memo.lookup ⟨.rule r, c.index⟩).bind (·.outcome? c.context.isSome) = none) :
      Visited g contextual (s.begin ⟨.rule r, c.index⟩ (Runner.firstSeed rule.title c rest))
  | grown {s t : Session} {r : Nat} {rule : Rule} {c : Cursor} {fuel : Nat} {pass : Outcome} {growth : Growth}
      {base : List (Key × Growth)} (before : Visited g contextual s)
      (regular : g.Regular contextual c.context.isSome (.rule r)) (found : g.rules[r]? = some rule)
      (top : s.growing = (⟨.rule r, c.index⟩, growth) :: base) (ran : g.run fuel rule.body c s = .ok (pass, t))
      (improves : Runner.improves pass growth.seed) : Visited g contextual (t.grow ⟨.rule r, c.index⟩ pass)

theorem Visited.tidy {s : Session} (visited : g.Visited contextual s) : g.Tidy contextual s := by
  have lawful := g.stacking_lawful contextual
  induction visited with
  | fresh options journal => exact lawful.tables (lawful.fresh journal) rfl rfl
  | noted _ memo growing ih => exact lawful.tables ih memo growing
  | ran _ regular ran ih => exact (lawful.ran regular rfl ih ran).ready
  | begun _ regular found mode _ idle miss ih => exact lawful.begins regular found mode rfl ih idle miss rfl
  | grown _ regular found top ran _ ih =>
      have fulfils := lawful.ran (lawful.body regular found) rfl ih ran
      have once := ih.stack.once
      rw [top, List.map_cons, List.nodup_cons] at once
      refine lawful.grows regular rfl fulfils.ready (fulfils.continues.growing.trans top) ?_ fulfils.gives
      refine List.lookup_eq_none_iff.2 fun entry member => ?_
      simp only [bne_iff_ne]
      intro same
      exact once.1 (List.mem_map.2 ⟨entry, member, same.symm⟩)

end Grammar

structure Session.Restored (s t : Session) : Prop where
  stack : t.IsStack
  growing : t.growing = s.growing
  memo : ∀ key entry, s.memo.lookup key = some entry → t.memo.lookup key = some entry

open Classical in
noncomputable def Runner.checked (stop : Halt) (check : Cursor → Session → Session → Prop) (p : Runner) : Runner :=
  fun c s => if check c s s then p c s >>= fun r => if check c s r.2 then .ok r else .error stop else .error stop

theorem Runner.checked_eq {stop : Halt} {check : Cursor → Session → Session → Prop} {p : Runner} {c : Cursor}
    {s : Session} (before : check c s s) (after : ∀ o t, p c s = .ok (o, t) → check c s t) :
    p.checked stop check c s = p c s := by
  rw [checked, if_pos before]
  cases ran : p c s with
  | error halt => rfl
  | ok r => rw [ok_bind, if_pos (after r.1 r.2 ran)]

namespace Grammar

/-- Halts a run where a run inside it does not restore the stack, or where a left-recursive rule is not in flight
before or after a pass of its body. -/
noncomputable def stackWatch (g : Grammar) (stop : Halt) : Alteration where
  run _ := .checked stop fun _ s t => s.Restored t
  body r := .checked stop fun c _ t => g.Grows (.rule r) → (t.growing.lookup ⟨.rule r, c.index⟩).isSome

theorem stackWatch_harmless (g : Grammar) (contextual : Nat → Bool) (stop : Halt) :
    (g.stacking contextual).Harmless g (g.stackWatch stop) where
  run e p c s tidy ends := by
    simp only [stackWatch]
    apply Runner.checked_eq
    · exact ⟨tidy.stack, rfl, fun _ _ known => known⟩
    · intro o t ran
      obtain ⟨tidy', continues⟩ := ends o t ran
      exact ⟨tidy'.stack, continues.growing, continues.memo⟩
  body r rule p c s found inFlight ends := by
    have own (grows : g.Grows (.rule r)) : (s.growing.lookup ⟨.rule r, c.index⟩).isSome := by
      obtain ⟨_, rule', same, found', mode⟩ := grows
      cases same
      rw [found] at found'
      cases found'
      exact inFlight mode
    simp only [stackWatch]
    apply Runner.checked_eq own
    intro o t ran grows
    rw [(ends o t ran).growing]
    exact own grows

/-- In every session that regular runs pass through, the rules in flight are a stack. A regular run that returns has
restored it and still remembers what was remembered. Nor is there a run inside it, or a pass of a growing rule, that
does otherwise: if that halted the run, the run would be the same. -/
theorem run_restores_stack (g : Grammar) (contextual : Nat → Bool) (e : Expr) (c : Cursor) (s : Session) (fuel : Nat)
    (regular : g.Regular contextual c.context.isSome e) (visited : g.Visited contextual s) :
    s.IsStack ∧ (∀ o t, g.run fuel e c s = .ok (o, t) → s.Restored t) ∧
      ∀ stop, g.runAltered (g.stackWatch stop) fuel e c s = g.run fuel e c s := by
  have lawful := g.stacking_lawful contextual
  have tidy := visited.tidy
  refine ⟨tidy.stack, fun o t ran => ?_, fun stop => ?_⟩
  · have fulfils := lawful.ran regular rfl tidy ran
    exact ⟨fulfils.ready.stack, fulfils.continues.growing, fulfils.continues.memo⟩
  · exact (lawful.run (g.stackWatch_harmless contextual stop) fuel regular rfl tidy).eq.1

theorem run_restores_stack_inside_growth :
    let g : Grammar := { rules := [
      ⟨.leftRecursive, "sum", .orElse (.pair (.rule 0) (.pair (.prim (.char '+')) (.rule 1))) (.rule 1)⟩,
      ⟨.memo, "item", .orElse (.prim .digit) (.pair (.prim (.char '(')) (.pair (.rule 0) (.prim (.char ')'))))⟩] }
    let c : Cursor := ⟨"(1+2)+3".toList, 0, none⟩
    let s := (Session.fresh {} {}).begin ⟨.rule 0, 0⟩ (Runner.firstSeed "sum" c c.text)
    ∃ o t, g.run 12 (.rule 1) c s = .ok (o, t) ∧ o.index = 5 ∧ s.growing.length = 1 ∧ s.Restored t ∧
      ∀ stop, g.runAltered (g.stackWatch stop) 12 (.rule 1) c s = .ok (o, t) := by
  intro g c s
  have ends : (g.run 12 (.rule 1) c s).toOption.map (·.1.index) = some 5 := by decide +kernel
  have regular (r : Nat) : g.Regular (fun _ => false) c.context.isSome (.rule r) := .plain (.of_isSimple rfl rfl)
  have found : g.rules[0]? = some _ := rfl
  have visited : g.Visited (fun _ => false) s := .begun (.fresh {} {}) (regular 0) found rfl rfl rfl rfl
  cases ran : g.run 12 (.rule 1) c s with
  | error halt => simp [ran, Except.toOption] at ends
  | ok r =>
      obtain ⟨o, t⟩ := r
      simp only [ran, Except.toOption, Option.map_some, Option.some.injEq] at ends
      obtain ⟨-, restores, unnoticed⟩ :=
        run_restores_stack g (fun _ => false) (.rule 1) c s 12 (regular 1) visited
      exact ⟨o, t, rfl, ends, rfl, restores o t ran, fun stop => (unnoticed stop).trans ran⟩

end Grammar
end ParseEngine
