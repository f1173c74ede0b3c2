import ParseEngine.Proofs.Script

namespace ParseEngine
namespace Script

def requests : Nat → List String → List Stmt
  | _, [] => []
  | n, name :: names => .ask (.parse n none) name false :: requests (n + 1) names

def linear (names : List String) : List Stmt :=
  requests 0 names ++ [.give (.list (names.map .var))]

inductive Passes : Nat → List Part → Cursor → Session → List Value → List Frame → Cursor → Session → Prop
  | done (n : Nat) (c : Cursor) (s : Session) : Passes n [] c s [] [] c s
  | next {n : Nat} {p : Part} {ps : List Part} {c d e : Cursor} {s t u : Session} {v : Value} {vs : List Value}
      {frames : List Frame} (step : p.runner c s = .ok (.success v d, t)) (rest : Passes (n + 1) ps d t vs frames e u) :
      Passes n (p :: ps) c s (v :: vs) (⟨n + 1, p.description, v.inspect, d.index⟩ :: frames) e u

theorem requests_append (n : Nat) (names more : List String) :
    requests n (names ++ more) = requests n names ++ requests (n + names.length) more := by
  induction names generalizing n with
  | nil => rfl
  | cons name names ih =>
      have counted : n + (name :: names).length = n + 1 + names.length := by simp only [List.length_cons]; omega
      rw [counted, List.cons_append, requests, ih]
      rfl

theorem partAt_of_drop {parts after : List Part} {p : Part} {n : Nat} (next : parts.drop n = p :: after) :
    partAt parts n = p := by
  have here : parts[n]? = some p := by rw [← List.head?_drop, next]; rfl
  rw [partAt, here]
  rfl

variable {n : Nat} {part : Part} {parts before ps : List Part} {c d e : Cursor} {s t u : Session} {v : Value}
  {vs : List Value} {frames : List Frame} {message found : String}

theorem passes_or_stops (n : Nat) (parts : List Part) (c : Cursor) (s : Session) :
    (∃ vs frames e u, Passes n parts c s vs frames e u) ∨
    ∃ before part after vs frames e u, parts = before ++ part :: after ∧ Passes n before c s vs frames e u ∧
      ∀ v d t, part.runner e u ≠ .ok (.success v d, t) := by
  induction parts generalizing n c s with
  | nil => exact .inl ⟨[], [], c, s, .done n c s⟩
  | cons p ps ih =>
      by_cases step : ∃ v d t, p.runner c s = .ok (.success v d, t)
      · obtain ⟨v, d, t, step⟩ := step
        obtain ⟨vs, frames, e, u, passes⟩ | ⟨before, part, after, vs, frames, e, u, rfl, passes, stops⟩ :=
          ih (n + 1) d t
        · exact .inl ⟨_, _, e, u, .next step passes⟩
        · exact .inr ⟨p :: before, part, after, _, _, e, u, rfl, .next step passes, stops⟩
      · exact .inr ⟨[], p, ps, [], [], c, s, rfl, .done n c s, fun v d t step' => step ⟨v, d, t, step'⟩⟩

theorem runBlock_request (parts : List Part) (fuel n : Nat) (name : String) (rest : List Stmt) (c : Cursor)
    (history : List Frame) (s : Session) (bindings : List (String × Value)) :
    runBlock parts (fuel + 1) (.ask (.parse n none) name false :: rest) ⟨⟨c, history, none⟩, s, bindings⟩ =
      (partAt parts n).runner c s >>= fun
        | (.success v d, t) =>
            let frame : Frame := ⟨history.length + 1, (partAt parts n).description, v.inspect, d.index⟩
            runBlock parts fuel rest ⟨⟨d, history ++ [frame], none⟩, t, (name, v) :: bindings⟩
        | (.failure message d found, t) =>
            let event : LogEvent := .stepFailed (history.length + 1) (partAt parts n).description d.index message
            .ok (.aborted {}, ⟨⟨c, history, some ⟨message, d, found⟩⟩, t.log event, bindings⟩) := by
  rw [runBlock_cons]
  simp only [Stmt.ask, runStmt, Plan.play, Request.put, Driver.parse, Option.isSome_none, Bool.false_eq_true, if_false,
    Option.getD_none]
  cases (partAt parts n).runner c s with
  | error halt => rfl
  | ok r =>
      obtain ⟨o, t⟩ := r
      cases o with
      | success v d => rfl
      | failure message d found => rfl

theorem evalAll_vars (scene : Scene) (names : List String) :
    scene.evalAll (names.map .var) = .ok (names.map scene.valueOf) := by
  induction names with
  | nil => rw [List.map_nil, Scene.evalAll]; rfl
  | cons name names ih => rw [List.map_cons, Scene.evalAll, ih, Scene.eval]; rfl

theorem lookup_of_mem {bindings : List (String × Value)} {name : String} (distinct : (bindings.map Prod.fst).Nodup)
    (bound : (name, v) ∈ bindings) : bindings.lookup name = some v := by
  obtain ⟨newer, older, rfl⟩ := List.append_of_mem bound
  rw [List.map_append, List.map_cons, List.nodup_append] at distinct
  refine List.lookup_eq_some_iff.2 ⟨newer, older, rfl, fun binding member => ?_⟩
  have differs := distinct.2.2 binding.1 (List.mem_map_of_mem member) name List.mem_cons_self
  simpa using differs.symm

theorem map_valueOf_zip {names : List String} (distinct : names.Nodup) (named : names.length = vs.length) (d : Driver)
    (s : Session) : names.map (Scene.valueOf ⟨d, s, (names.zip vs).reverse⟩) = vs := by
  -- as the names differ, no value hides another
  have keys : ((names.zip vs).reverse.map Prod.fst).Nodup := by
    rw [List.map_reverse, List.map_fst_zip (Nat.le_of_eq named)]
    exact (List.reverse_perm names).nodup_iff.2 distinct
  refine List.ext_getElem (by simpa using named) fun i _ inside => ?_
  have inside' : i < names.length := by omega
  have bound : (names[i], vs[i]) ∈ (names.zip vs).reverse := by
    refine List.mem_reverse.2 (List.mem_iff_getElem.2 ⟨i, ?_, List.getElem_zip⟩)
    rw [List.length_zip]
    omega
  rw [List.getElem_map, Scene.valueOf, lookup_of_mem keys bound]
  rfl

namespace Passes

theorem lengths (passes : Passes n ps c s vs frames e u) : vs.length = ps.length ∧ frames.length = ps.length := by
  induction passes with
  | done => exact ⟨rfl, rfl⟩
  | next step rest ih => simp only [List.length_cons, ih, and_self]

theorem sequenceFrom (passes : Passes n ps c s vs frames e u) (rest : List Part) (collected : List Value) :
    Runner.sequenceFrom ((ps ++ rest).map Part.runner) collected c s =
      Runner.sequenceFrom (rest.map Part.runner) (vs.reverse ++ collected) e u := by
  induction passes generalizing collected with
  | done => rfl
  | @next n p ps c d e s t u v vs frames step later ih =>
      rw [List.cons_append, List.map_cons, Runner.sequenceFrom, Runner.andThen, step]
      simp only [ok_bind, ih, List.reverse_cons, List.append_assoc, List.cons_append, List.nil_append]

theorem sequence_gives (passes : Passes n parts c s vs frames e u) :
    Runner.sequence (parts.map Part.runner) c s = .ok (.success (.list vs) e, u) := by
  have whole := passes.sequenceFrom [] []
  simp only [List.append_nil] at whole
  rw [Runner.sequence, whole, List.map_nil, Runner.sequenceFrom, List.reverse_reverse]
  rfl

theorem sequence_stops (passes : Passes n before c s vs frames e u)
    (stops : ∀ v d t, part.runner e u ≠ .ok (.success v d, t)) (after : List Part) :
    Runner.sequence ((before ++ part :: after).map Part.runner) c s = part.runner e u := by
  rw [Runner.sequence, passes.sequenceFrom, List.map_cons, Runner.sequenceFrom, Runner.andThen]
  cases ran : part.runner e u with
  | error halt => rfl
  | ok r =>
      obtain ⟨o, t⟩ := r
      cases o with
      | success v d => exact absurd ran (stops v d t)
      | failure message d found => rfl

theorem sequence_fails (passes : Passes n before c s vs frames e u)
    (failed : part.runner e u = .ok (.failure message d found, t)) (after : List Part) :
    Runner.sequence ((before ++ part :: after).map Part.runner) c s = .ok (.failure message d found, t) := by
  rw [passes.sequence_stops (by simp [failed]), failed]

theorem runBlock_requests (passes : Passes n ps c s vs frames e u) {after : List Part}
    (remaining : parts.drop n = ps ++ after) {names : List String} (named : names.length = ps.length)
    {history : List Frame} (counted : history.length = n) (bindings : List (String × Value)) (left : Nat)
    (rest : List Stmt) :
    runBlock parts (left + ps.length) (requests n names ++ rest) ⟨⟨c, history, none⟩, s, bindings⟩ =
      runBlock parts left rest ⟨⟨e, history ++ frames, none⟩, u, (names.zip vs).reverse ++ bindings⟩ := by
  induction passes generalizing names history bindings with
  | done n c s =>
      obtain rfl := List.length_eq_zero_iff.1 named
      simp only [requests, List.nil_append, List.append_nil, List.zip_nil_left, List.reverse_nil, List.length_nil,
        Nat.add_zero]
  | @next n p ps c d e s t u v vs frames step later ih =>
      cases names with
      | nil => cases named
      | cons name names =>
          subst counted
          let frame : Frame := ⟨history.length + 1, p.description, v.inspect, d.index⟩
          have here : partAt parts history.length = p := partAt_of_drop remaining
          have onward : parts.drop (history.length + 1) = ps ++ after := by rw [← List.tail_drop, remaining]; rfl
          have counted : (history ++ [frame]).length = history.length + 1 := List.length_append
          have moved := ih onward (Nat.succ.inj named) counted ((name, v) :: bindings)
          rw [requests, List.cons_append, List.length_cons, ← Nat.add_assoc, runBlock_request, here, step, ok_bind]
          refine moved.trans ?_
          simp only [List.append_assoc, List.zip_cons_cons, List.reverse_cons, List.cons_append, List.nil_append, frame]

theorem linear_gives (passes : Passes 0 parts c s vs frames e u) {names : List String} (distinct : names.Nodup)
    (named : names.length = parts.length) {fuel : Nat} (enough : parts.length < fuel) :
    run fuel parts (linear names) c s = .ok (.success (.list vs) e, u) := by
  obtain ⟨left, rfl⟩ := Nat.exists_eq_add_of_lt enough
  have split : parts.length + left + 1 = left + 1 + parts.length := by omega
  have whole : parts.drop 0 = parts ++ [] := (List.append_nil parts).symm
  have valued : names.length = vs.length := named.trans passes.lengths.1.symm
  rw [run, linear, Driver.start, split, passes.runBlock_requests whole named rfl, List.append_nil, runBlock_cons]
  simp only [runStmt, Scene.eval, evalAll_vars, map_valueOf_zip distinct valued, ok_bind]
  rfl

section Stops
variable {after : List Part} (passes : Passes 0 before c s vs frames e u) {names : List String}
  (named : names.length = (before ++ part :: after).length) {fuel : Nat}
  (enough : (before ++ part :: after).length < fuel)
include passes named enough

theorem linear_asks : ∃ left name rest bindings,
    runBlock (before ++ part :: after) fuel (linear names) ⟨.start c, s, []⟩ =
      runBlock (before ++ part :: after) (left + 1) (.ask (.parse before.length none) name false :: rest)
        ⟨⟨e, frames, none⟩, u, bindings⟩ := by
  rw [List.length_append, List.length_cons] at named enough
  obtain ⟨left, rfl⟩ : ∃ left, fuel = left + 1 + before.length := ⟨fuel - before.length - 1, by omega⟩
  have inside : before.length < names.length := by omega
  obtain ⟨first, name, later, rfl, counted⟩ : ∃ first name later,
      names = first ++ name :: later ∧ first.length = before.length :=
    ⟨names.take before.length, names[before.length], names.drop (before.length + 1),
      by rw [List.getElem_cons_drop, List.take_append_drop], List.length_take_of_le (Nat.le_of_lt inside)⟩
  rw [linear, requests_append, counted, List.append_assoc, Driver.start, passes.runBlock_requests rfl counted rfl,
    Nat.zero_add]
  exact ⟨left, name, _, _, rfl⟩

theorem linear_fails (failed : part.runner e u = .ok (.failure message d found, t)) :
    run fuel (before ++ part :: after) (linear names) c s =
      .ok (.failure (s!"step sequence failed after {before.length} successful step(s):\n" ++
          String.join (frames.map fun frame => "  " ++ frame.line ++ "\n") ++ message) d found,
        t.log (.stepFailed (before.length + 1) part.description d.index message)) := by
  have here : partAt (before ++ part :: after) before.length = part := partAt_of_drop List.drop_left
  obtain ⟨left, name, rest, bindings, asks⟩ := passes.linear_asks named enough
  rw [run, asks, runBlock_request, here, failed, ← passes.lengths.2]
  rfl

theorem linear_halts {halt : Halt} (halted : part.runner e u = .error halt) :
    run fuel (before ++ part :: after) (linear names) c s = .error halt := by
  have here : partAt (before ++ part :: after) before.length = part := partAt_of_drop List.drop_left
  obtain ⟨left, name, rest, bindings, asks⟩ := passes.linear_asks named enough
  rw [run, asks, runBlock_request, here, halted]
  rfl

end Stops

end Passes

/-- A script that asks for its parts in order and gives their values succeeds where their sequence does, with the same
values, and halts where it does. Where the sequence fails, so does the script, at the same place: its message tells how
many steps went before and what each of them gave, and ends with the message of the sequence. The sessions are the same
but for the log, where the script has noted the failure. -/
theorem linear_traces_sequence (parts : List Part) (names : List String) (fuel : Nat) (c : Cursor) (s : Session)
    (distinct : names.Nodup) (named : names.length = parts.length) (enough : parts.length < fuel) :
    (∀ v d t, run fuel parts (linear names) c s = .ok (.success v d, t) ↔
      Runner.sequence (parts.map Part.runner) c s = .ok (.success v d, t)) ∧
    (∀ halt, run fuel parts (linear names) c s = .error halt ↔
      Runner.sequence (parts.map Part.runner) c s = .error halt) ∧
    ∀ message d found t, Runner.sequence (parts.map Part.runner) c s = .ok (.failure message d found, t) ↔
      ∃ before part after vs frames e u, parts = before ++ part :: after ∧ Passes 0 before c s vs frames e u ∧
        part.runner e u = .ok (.failure message d found, t) ∧
        run fuel parts (linear names) c s =
          .ok (.failure (s!"step sequence failed after {before.length} successful step(s):\n" ++
              String.join (frames.map fun frame => "  " ++ frame.line ++ "\n") ++ message) d found,
            t.log (.stepFailed (before.length + 1) part.description d.index message)) := by
  -- all parts succeed, or there is a first one that does not, which halts or fails
  obtain ⟨vs, frames, e, u, passes⟩ | ⟨before, part, after, vs, frames, e, u, rfl, passes, stops⟩ :=
    passes_or_stops 0 parts c s
  · rw [passes.linear_gives distinct named enough, passes.sequence_gives]
    refine ⟨fun v d t => .rfl, fun halt => .rfl, fun message d found t => ⟨nofun, ?_⟩⟩
    rintro ⟨_, _, _, _, _, _, _, _, _, _, failed⟩
    cases failed
  · cases ends : part.runner e u with
    | error halt =>
        rw [passes.linear_halts named enough ends, passes.sequence_stops stops, ends]
        refine ⟨fun v d t => .rfl, fun halt => .rfl, fun message d found t => ⟨nofun, ?_⟩⟩
        rintro ⟨_, _, _, _, _, _, _, _, _, _, failed⟩
        cases failed
    | ok r =>
        obtain ⟨o, t⟩ := r
        cases o with
        | success v d => exact absurd ends (stops v d t)
        | failure message d found =>
            have ran := passes.linear_fails named enough ends
            have whole := passes.sequence_fails ends after
            refine ⟨fun v d t => ?_, fun halt => ?_, fun message' d' found' t' => ⟨fun failed => ?_, ?_⟩⟩
            · rw [ran, whole]
              exact ⟨nofun, nofun⟩
            · rw [ran, whole]
              exact ⟨nofun, nofun⟩
            · rw [whole] at failed
              cases failed
              exact ⟨before, part, after, vs, frames, e, u, rfl, passes, ends, ran⟩
            · rintro ⟨before', part', after', vs', frames', e', u', split, passes', failed, -⟩
              rw [split]
              exact passes'.sequence_fails failed after'

theorem linear_traces_sequence_of_entry :
    let part (p : Prim) : Part := ⟨p.description, fun c s => do return (← p.run c, s)⟩
    let parts : List Part := [part (.literal "key"), part (.literal ":"), part .number]
    let names : List String := ["key", "colon", "value"]
    let place (index : Nat) : Cursor := ⟨['k', 'e', 'y', ':', 'x'], index, none⟩
    names.Nodup ∧
    run 4 parts (linear names) (place 0) {} =
      .ok (.failure ("step sequence failed after 2 successful step(s):\n" ++
          "  #1 \"key\" = \"key\" @ 3\n  #2 \":\" = \":\" @ 4\nExpected number") (place 4) "\"x\"",
        Session.log {} (.stepFailed 3 "number" 4 "Expected number")) ∧
    Runner.sequence (parts.map Part.runner) (place 0) {} = .ok (.failure "Expected number" (place 4) "\"x\"", {}) := by
  refine ⟨by decide, rfl, ?_⟩
  refine ((linear_traces_sequence _ ["key", "colon", "value"] 4 _ _ (by decide) (by rfl) (by decide)).2.2 _ _ _ _).2 ?_
  exact ⟨[_, _], _, [], _, _, _, {}, rfl, .next rfl (.next rfl (.done 2 _ _)), rfl, rfl⟩

end Script
end ParseEngine
