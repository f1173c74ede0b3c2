import Mathlib.Data.List.Induction
import ParseEngine.Grammar.Run
import ParseEngine.Proofs.Boundary

/-!
Alternatives and how their failures are reported.

A choice runs its alternatives in order from one cursor and stops at the first success. If all of them fail, it reports
the place of the first failure that got furthest, with the different messages of all failures there. A chain of attempts
tries the same alternatives in the same order; it differs only in the failure that it reports. Without an attempt, a
runner gives way to an alternative only if it fails where it began.
-/

namespace ParseEngine

inductive AllFail (c : Cursor) : List Runner → Session → List Failure → Session → Prop
  | none (s : Session) : AllFail c [] s [] s
  | next {p : Runner} {ps : List Runner} {s t u : Session} {failure : Failure} {failures : List Failure}
      (lost : p c s = .ok (failure.toOutcome, t)) (rest : AllFail c ps t failures u) :
      AllFail c (p :: ps) s (failure :: failures) u

/-- Run in the same way, an alternative succeeds after all those before it have failed. Nothing is said of those after
it: they need not even return. -/
inductive FirstSuccess (c : Cursor) : List Runner → Session → Value → Cursor → Session → Prop
  | here {p : Runner} {later : List Runner} {s t : Session} {v : Value} {d : Cursor}
      (won : p c s = .ok (.success v d, t)) : FirstSuccess c (p :: later) s v d t
  | next {p : Runner} {ps : List Runner} {s t u : Session} {failure : Failure} {v : Value} {d : Cursor}
      (lost : p c s = .ok (failure.toOutcome, t)) (rest : FirstSuccess c ps t v d u) : FirstSuccess c (p :: ps) s v d u

structure Distinct (all distinct : List String) : Prop where
  mem : ∀ text, text ∈ distinct ↔ text ∈ all
  order : distinct.Pairwise fun first second => all.idxOf first < all.idxOf second

/-- Several messages that all say what was expected are joined behind one mark, all others as they are. -/
inductive Joined : List String → String → Prop
  | folded (wanted : List String) (several : 1 < wanted.length) :
      Joined (wanted.map ("Expected " ++ ·)) ("Expected " ++ " or ".intercalate wanted)
  | plain (messages : List String)
      (mixed : ¬(1 < messages.length ∧ ∀ m ∈ messages, ∃ wanted, m = "Expected " ++ wanted)) :
      Joined messages (" or ".intercalate messages)

/-- The report on several failures: it stands where the first of those that got furthest stands, and its message is
joined from the different messages of all that got there. -/
structure Furthest (failures : List Failure) (report : Failure) : Prop where
  place : ∃ before first after, failures = before ++ first :: after ∧
    (∀ f ∈ before, f.cursor.index < first.cursor.index) ∧ (∀ f ∈ after, f.cursor.index ≤ first.cursor.index) ∧
    report.cursor = first.cursor ∧ report.found = first.found
  message : ∃ distinct, Joined distinct report.message ∧
    Distinct ((failures.filter (·.cursor.index = report.cursor.index)).map (·.message)) distinct

variable {c d : Cursor} {s t u : Session} {p : Runner} {ps : List Runner} {v : Value} {failures failed : List Failure}
  {message found : String}

theorem eraseDups_distinct (all : List String) : Distinct all all.eraseDups := by
  refine ⟨fun text => List.mem_eraseDups, ?_⟩
  -- a text is added at the end, where it changes no earlier position
  induction all using List.reverseRecOn with
  | nil => exact .nil
  | append_singleton before last ih =>
      have kept (text : String) (member : text ∈ before) : (before ++ [last]).idxOf text = before.idxOf text := by
        rw [List.idxOf_append, if_pos member]
      have ordered : before.eraseDups.Pairwise fun first second =>
          (before ++ [last]).idxOf first < (before ++ [last]).idxOf second := by
        refine ih.imp_of_mem fun {first second} earlier later lt => ?_
        rwa [kept first (List.mem_eraseDups.1 earlier), kept second (List.mem_eraseDups.1 later)]
      rw [List.eraseDups_append]
      by_cases known : last ∈ before
      · simpa [List.removeAll, known] using ordered
      · have new : ([last].removeAll before).eraseDups = [last] := by simp [List.removeAll, known, List.eraseDups_cons]
        rw [new, List.pairwise_append]
        refine ⟨ordered, List.pairwise_singleton _ _, fun text member other same => ?_⟩
        rw [List.mem_singleton.1 same, kept text (List.mem_eraseDups.1 member), List.idxOf_append, if_neg known]
        have inside := List.idxOf_lt_length_of_mem (List.mem_eraseDups.1 member)
        omega

namespace Failure

theorem startsWith_expectedMark (m : String) : m.startsWith expectedMark ↔ ∃ wanted, m = "Expected " ++ wanted := by
  rw [String.startsWith_string_iff]
  constructor
  · rintro ⟨wanted, same⟩
    refine ⟨String.ofList wanted, String.toList_injective ?_⟩
    rw [← same, expectedMark, String.toList_append, String.toList_ofList (l := wanted)]
  · rintro ⟨wanted, rfl⟩
    rw [expectedMark, String.toList_append]
    exact List.prefix_append _ _

theorem drop_expectedMark (wanted : String) :
    String.ofList (("Expected " ++ wanted).toList.drop expectedMark.length) = wanted := by
  have mark : expectedMark.length = "Expected ".toList.length := by decide
  rw [String.toList_append, mark, List.drop_left, String.ofList_toList]

theorem exists_wanted {messages : List String} (marked : ∀ m ∈ messages, ∃ wanted, m = "Expected " ++ wanted) :
    ∃ wanted, messages = List.map ("Expected " ++ ·) wanted := by
  induction messages with
  | nil => exact ⟨[], rfl⟩
  | cons m rest ih =>
      obtain ⟨first, rfl⟩ := marked m (List.mem_cons_self ..)
      obtain ⟨more, rfl⟩ := ih fun m member => marked m (List.mem_cons_of_mem _ member)
      exact ⟨first :: more, rfl⟩

theorem joinMessages_joined (messages : List String) : Joined messages (joinMessages messages) := by
  have checked : (1 < messages.length && messages.all (·.startsWith expectedMark)) = true ↔
      1 < messages.length ∧ ∀ m ∈ messages, ∃ wanted, m = "Expected " ++ wanted := by
    simp only [Bool.and_eq_true, decide_eq_true_eq, List.all_eq_true, startsWith_expectedMark]
  by_cases expecting : 1 < messages.length ∧ ∀ m ∈ messages, ∃ wanted, m = "Expected " ++ wanted
  · rw [joinMessages, if_pos (checked.2 expecting)]
    obtain ⟨several, marked⟩ := expecting
    obtain ⟨wanted, rfl⟩ := exists_wanted marked
    simp only [List.map_map, Function.comp_def, drop_expectedMark, List.map_id']
    exact .folded wanted (by simpa using several)
  · rw [joinMessages, if_neg (mt checked.1 expecting)]
    exact .plain messages expecting

theorem le_reach {f : Failure} (member : f ∈ failures) : f.cursor.index ≤ reach failures := by
  have inside : f.cursor.index ∈ failures.map (·.cursor.index) := List.mem_map_of_mem member
  rw [reach, List.foldl_max]
  cases greatest : (failures.map (·.cursor.index)).max? with
  | none =>
      rw [List.max?_eq_none_iff.1 greatest] at inside
      cases inside
  | some n => exact Nat.le_trans ((List.max?_eq_some_iff.1 greatest).2 _ inside) (Nat.le_max_right 0 n)

theorem exists_reach (some : failures ≠ []) : ∃ f ∈ failures, f.cursor.index = reach failures := by
  rw [reach, List.foldl_max]
  cases greatest : (failures.map (·.cursor.index)).max? with
  | none => exact absurd (List.map_eq_nil_iff.1 (List.max?_eq_none_iff.1 greatest)) some
  | some n =>
      obtain ⟨f, member, same⟩ := List.mem_map.1 (List.max?_eq_some_iff.1 greatest).1
      exact ⟨f, member, by simpa using same⟩

theorem furthest?_furthest (some : failures ≠ []) :
    ∃ report, furthest? failures = .some report ∧ Furthest failures report := by
  obtain ⟨f, member, reaches⟩ := exists_reach some
  cases tied : failures.filter (·.cursor.index == reach failures) with
  | nil =>
      have inside : f ∈ failures.filter (·.cursor.index == reach failures) :=
        List.mem_filter.2 ⟨member, by simpa using reaches⟩
      rw [tied] at inside
      cases inside
  | cons first more =>
      obtain ⟨before, after, split, short, here, -⟩ := List.filter_eq_cons_iff.1 tied
      have here : first.cursor.index = reach failures := by simpa using here
      refine ⟨{ first with message := joinMessages ((first :: more).map (·.message)).eraseDups },
        by rw [furthest?, tied]; rfl, ⟨before, first, after, split, ?_, ?_, rfl, rfl⟩, ?_⟩
      · intro f member
        have inside : f ∈ failures := by
          rw [split]
          exact List.mem_append_left _ member
        have le := le_reach inside
        have ne : f.cursor.index ≠ reach failures := by simpa using short f member
        omega
      · intro f member
        have inside : f ∈ failures := by
          rw [split]
          exact List.mem_append_right _ (List.mem_cons_of_mem _ member)
        rw [here]
        exact le_reach inside
      · refine ⟨_, joinMessages_joined _, ?_⟩
        have same : failures.filter (fun f => decide (f.cursor.index = first.cursor.index)) = first :: more := by
          rw [← tied, here]
          rfl
        rw [same]
        exact eraseDups_distinct _

end Failure

namespace Runner

theorem choiceFrom_lost {failure : Failure} (lost : p c s = .ok (failure.toOutcome, t)) :
    choiceFrom (p :: ps) failed c s = choiceFrom ps (failure :: failed) c t := by
  simp only [choiceFrom, lost, ok_bind]
  rfl

theorem choiceFrom_success_iff :
    choiceFrom ps failed c s = .ok (.success v d, t) ↔ FirstSuccess c ps s v d t := by
  constructor
  · intro ran
    induction ps generalizing s failed with
    | nil =>
        rw [choiceFrom] at ran
        split at ran
        · cases ran
        · obtain ⟨found, -, same, -⟩ := failHere_eq_ok ran
          cases same
    | cons p ps ih =>
        obtain ⟨⟨o, u⟩, first, rest⟩ := bind_eq_ok.1 ran
        cases o with
        | success w e =>
            cases rest
            exact .here first
        | failure message e found =>
            have lost : p c s = .ok ((⟨message, e, found⟩ : Failure).toOutcome, u) := first
            exact .next lost (ih rest)
  · intro first
    induction first generalizing failed with
    | here won => simp only [choiceFrom, won, ok_bind]; rfl
    | next lost _ ih => rw [choiceFrom_lost lost, ih]

theorem choiceFrom_allFail (fail : AllFail c ps s failures t) :
    choiceFrom ps failed c s = choiceFrom [] (failures.reverse ++ failed) c t := by
  induction fail generalizing failed with
  | none s => rfl
  | next lost _ ih => rw [choiceFrom_lost lost, ih, List.reverse_cons, List.append_assoc, List.singleton_append]

theorem allFail_of_choiceFrom (ran : choiceFrom ps failed c s = .ok (.failure message d found, t)) :
    ∃ failures, AllFail c ps s failures t := by
  induction ps generalizing s failed with
  | nil =>
      rw [choiceFrom] at ran
      split at ran
      · cases ran
        exact ⟨[], .none _⟩
      · obtain ⟨found, -, -, rfl⟩ := failHere_eq_ok ran
        exact ⟨[], .none _⟩
  | cons p ps ih =>
      obtain ⟨⟨o, u⟩, first, rest⟩ := bind_eq_ok.1 ran
      cases o with
      | success w e => cases rest
      | failure message e found =>
          obtain ⟨failures, fail⟩ := ih rest
          exact ⟨⟨message, e, found⟩ :: failures, .next first fail⟩

theorem choice_of_allFail (some : ps ≠ []) (fail : AllFail c ps s failures t) :
    ∃ report, Furthest failures report ∧ choice ps c s = .ok (report.toOutcome, t) := by
  have failed : failures ≠ [] := by
    cases fail with
    | none => exact absurd rfl some
    | next => exact List.cons_ne_nil _ _
  obtain ⟨report, furthest, meets⟩ := Failure.furthest?_furthest failed
  refine ⟨report, meets, ?_⟩
  rw [choice, choiceFrom_allFail fail, List.append_nil, choiceFrom, List.reverse_reverse, furthest]

end Runner

theorem choice_reports_furthest (ps : List Runner) (c : Cursor) (s : Session) :
    (∀ v d t, Runner.choice ps c s = .ok (.success v d, t) ↔ FirstSuccess c ps s v d t) ∧
    (∀ message d found t, Runner.choice ps c s = .ok (.failure message d found, t) →
      ∃ failures, AllFail c ps s failures t) ∧
    ∀ failures t, ps ≠ [] → AllFail c ps s failures t →
      ∃ report, Furthest failures report ∧ Runner.choice ps c s = .ok (report.toOutcome, t) :=
  ⟨fun _ _ _ => Runner.choiceFrom_success_iff, fun _ _ _ _ => Runner.allFail_of_choiceFrom,
    fun _ _ => Runner.choice_of_allFail⟩

theorem choice_reports_furthest_word :
    let word (w : String) : Runner := Grammar.run {} 1 (.prim (.literal w))
    let place (index : Nat) : Cursor := ⟨"cake".toList, index, none⟩
    ∃ failures report, Furthest failures report ∧ failures.map (·.cursor.index) = [1, 2, 2, 2] ∧
      Runner.choice [word "cup", word "cat", word "cap", word "cat"] (place 0) {} = .ok (report.toOutcome, {}) ∧
      report.message = "Expected \"cat\" or \"cap\"" ∧ report.cursor.index = 2 := by
  intro word place
  have fail : AllFail (place 0) [word "cup", word "cat", word "cap", word "cat"] {}
      [⟨"Expected \"cup\"", place 1, "\"ake\""⟩, ⟨"Expected \"cat\"", place 2, "\"ke\""⟩,
        ⟨"Expected \"cap\"", place 2, "\"ke\""⟩, ⟨"Expected \"cat\"", place 2, "\"ke\""⟩] {} :=
    .next rfl (.next rfl (.next rfl (.next rfl (.none {}))))
  obtain ⟨report, furthest, ran⟩ := (choice_reports_furthest _ (place 0) {}).2.2 _ _ (List.cons_ne_nil _ _) fail
  have reported : (Runner.choice [word "cup", word "cat", word "cap", word "cat"] (place 0) {}).toOption.map
      (fun r => (r.1.message?, r.1.index)) = some (some "Expected \"cat\" or \"cap\"", 2) := by
    decide +kernel
  simp only [ran, Except.toOption, Option.map_some, Option.some.injEq, Prod.mk.injEq] at reported
  exact ⟨_, report, furthest, rfl, ran, Option.some.inj reported.1, reported.2⟩

namespace Runner

def attempts (p : Runner) : List Runner → Runner
  | [] => adapt .attempt p
  | q :: rest => (adapt .attempt p).orElse (attempts q rest)

theorem adapt_attempt_won (won : p c s = .ok (.success v d, t)) : adapt .attempt p c s = .ok (.success v d, t) := by
  simp only [adapt, won, ok_bind]
  rfl

theorem adapt_attempt_lost {failure : Failure} {text : List Char} (remains : c.remaining = .ok text)
    (lost : p c s = .ok (failure.toOutcome, t)) :
    adapt .attempt p c s = .ok (.failure failure.message c (Cursor.previewOf text), t) := by
  have shown : c.preview = .ok (Cursor.previewOf text) := by rw [Cursor.preview, remains]; rfl
  simp only [adapt, lost, ok_bind, Failure.toOutcome, Adapter.apply, Outcome.failAt, shown]
  rfl

theorem attempts_halts {rest : List Runner} {halt : Halt} (halts : p c s = .error halt) :
    attempts p rest c s = .error halt := by
  have attempt : adapt .attempt p c s = .error halt := by simp only [adapt, halts, error_bind]
  cases rest with
  | nil => exact attempt
  | cons q rest => rw [attempts, orElse, attempt, error_bind]

theorem attempts_won {rest : List Runner} (won : p c s = .ok (.success v d, t)) :
    attempts p rest c s = .ok (.success v d, t) := by
  cases rest with
  | nil => exact adapt_attempt_won won
  | cons q rest =>
      rw [attempts, orElse, adapt_attempt_won won]
      rfl

theorem attempts_first {rest : List Runner} {o : Outcome} (ran : attempts p rest c s = .ok (o, t)) :
    (∃ v d, o = .success v d ∧ p c s = .ok (.success v d, t)) ∨
      ∃ (failure : Failure) (u : Session), p c s = .ok (failure.toOutcome, u) := by
  cases first : p c s with
  | error halt =>
      rw [attempts_halts first] at ran
      cases ran
  | ok result =>
      obtain ⟨o', u⟩ := result
      cases o' with
      | success v d =>
          rw [attempts_won first] at ran
          cases ran
          exact .inl ⟨v, d, rfl, rfl⟩
      | failure message d found => exact .inr ⟨⟨message, d, found⟩, u, rfl⟩

section Attempts
variable {rest : List Runner} {text : List Char} (remains : c.remaining = .ok text)
include remains

theorem attempts_lost {q : Runner} {failure : Failure} (lost : p c s = .ok (failure.toOutcome, t)) :
    attempts p (q :: rest) c s = attempts q rest c t := by
  rw [attempts, orElse, adapt_attempt_lost remains lost]
  simp only [ok_bind, if_true]

theorem attempts_of_firstSuccess (first : FirstSuccess c (p :: rest) s v d t) :
    attempts p rest c s = .ok (.success v d, t) := by
  induction rest generalizing p s with
  | nil =>
      cases first with
      | here won => exact attempts_won won
      | next _ none => cases none
  | cons q rest ih =>
      cases first with
      | here won => exact attempts_won won
      | next lost later => rw [attempts_lost remains lost, ih later]

theorem attempts_of_allFail (fail : AllFail c (p :: rest) s failures t) : ∃ last, failures.getLast? = some last ∧
    attempts p rest c s = .ok (.failure last.message c (Cursor.previewOf text), t) := by
  induction rest generalizing p s failures with
  | nil =>
      cases fail with
      | @next _ _ _ _ _ failure _ lost none =>
          cases none
          exact ⟨failure, rfl, adapt_attempt_lost remains lost⟩
  | cons q rest ih =>
      cases fail with
      | next lost later =>
          obtain ⟨last, isLast, ran⟩ := ih later
          refine ⟨last, ?_, by rw [attempts_lost remains lost, ran]⟩
          rw [List.getLast?_cons, isLast, Option.getD_some]

theorem attempts_cases {o : Outcome} (ran : attempts p rest c s = .ok (o, t)) :
    (∃ v d, o = .success v d ∧ FirstSuccess c (p :: rest) s v d t) ∨
      o.isSuccess = false ∧ ∃ failures, AllFail c (p :: rest) s failures t := by
  induction rest generalizing p s with
  | nil =>
      rcases attempts_first ran with ⟨v, d, rfl, won⟩ | ⟨failure, u, lost⟩
      · exact .inl ⟨v, d, rfl, .here won⟩
      · rw [attempts, adapt_attempt_lost remains lost] at ran
        cases ran
        exact .inr ⟨rfl, _, .next lost (.none _)⟩
  | cons q rest ih =>
      rcases attempts_first ran with ⟨v, d, rfl, won⟩ | ⟨failure, u, lost⟩
      · exact .inl ⟨v, d, rfl, .here won⟩
      · rw [attempts_lost remains lost] at ran
        rcases ih ran with ⟨v, d, rfl, later⟩ | ⟨failed, failures, later⟩
        · exact .inl ⟨v, d, rfl, .next lost later⟩
        · exact .inr ⟨failed, _, .next lost later⟩

end Attempts

end Runner

theorem AllFail.le (fail : AllFail c ps s failures t)
    (forward : ∀ q ∈ ps, ∀ s o t, q c s = .ok (o, t) → c.index ≤ o.index) :
    ∀ failure ∈ failures, c.index ≤ failure.cursor.index := by
  induction fail with
  | none s => exact fun _ member => nomatch member
  | next lost _ ih =>
      intro failure member
      rcases List.mem_cons.1 member with rfl | member
      · exact forward _ (List.mem_cons_self ..) _ _ _ lost
      · exact ih (fun q member => forward q (List.mem_cons_of_mem _ member)) failure member

/-- As the two agree for all runners, also for those that leave a mark in the session, they run the same ones in the
same order. -/
theorem choice_agrees_with_attempts (p : Runner) (rest : List Runner) (c : Cursor) (s : Session) (text : List Char)
    (remains : c.remaining = .ok text)
    (forward : ∀ q ∈ p :: rest, ∀ s o t, q c s = .ok (o, t) → c.index ≤ o.index) :
    (∀ v d t, (Runner.choice (p :: rest) c s = .ok (.success v d, t) ↔ FirstSuccess c (p :: rest) s v d t) ∧
      (Runner.attempts p rest c s = .ok (.success v d, t) ↔ FirstSuccess c (p :: rest) s v d t)) ∧
    (∀ t, ((∃ failure : Failure, Runner.choice (p :: rest) c s = .ok (failure.toOutcome, t)) ↔
        ∃ failures, AllFail c (p :: rest) s failures t) ∧
      ((∃ failure : Failure, Runner.attempts p rest c s = .ok (failure.toOutcome, t)) ↔
        ∃ failures, AllFail c (p :: rest) s failures t)) ∧
    ∀ failures t, AllFail c (p :: rest) s failures t → ∃ report last : Failure, failures.getLast? = some last ∧
      Runner.choice (p :: rest) c s = .ok (report.toOutcome, t) ∧ c.index ≤ report.cursor.index ∧
      Runner.attempts p rest c s = .ok (.failure last.message c (Cursor.previewOf text), t) := by
  refine ⟨fun v d t => ⟨Runner.choiceFrom_success_iff, fun ran => ?_, Runner.attempts_of_firstSuccess remains⟩,
    fun t => ⟨⟨?_, ?_⟩, ?_, ?_⟩, fun failures t fail => ?_⟩
  · rcases Runner.attempts_cases remains ran with ⟨v', d', same, first⟩ | ⟨failed, -⟩
    · cases same
      exact first
    · cases failed
  · rintro ⟨failure, ran⟩
    exact Runner.allFail_of_choiceFrom ran
  · rintro ⟨failures, fail⟩
    obtain ⟨report, -, ran⟩ := Runner.choice_of_allFail (List.cons_ne_nil _ _) fail
    exact ⟨report, ran⟩
  · rintro ⟨failure, ran⟩
    rcases Runner.attempts_cases remains ran with ⟨v, d, same, -⟩ | ⟨-, failures, fail⟩
    · cases same
    · exact ⟨failures, fail⟩
  · rintro ⟨failures, fail⟩
    obtain ⟨last, -, ran⟩ := Runner.attempts_of_allFail remains fail
    exact ⟨⟨last.message, c, Cursor.previewOf text⟩, ran⟩
  · obtain ⟨report, furthest, ran⟩ := Runner.choice_of_allFail (List.cons_ne_nil _ _) fail
    obtain ⟨last, isLast, ran'⟩ := Runner.attempts_of_allFail remains fail
    refine ⟨report, last, isLast, ran, ?_, ran'⟩
    obtain ⟨before, first, after, rfl, -, -, stands, -⟩ := furthest.place
    rw [stands]
    exact fail.le forward first (List.mem_append_right _ (List.mem_cons_self ..))

theorem choice_agrees_with_attempts_marked :
    let word (w : String) : Runner := (Grammar.run {} 1 (.prim (.literal w))).traced w
    let place (index : Nat) : Cursor := ⟨"!cake".toList, index, none⟩
    ∃ (report : Failure) (t : Session), t.journal.trace.length = 4 ∧ 1 ≤ report.cursor.index ∧
      Runner.choice [word "cat", word "cup"] (place 1) {} = .ok (report.toOutcome, t) ∧
      Runner.attempts (word "cat") [word "cup"] (place 1) {} =
        .ok (.failure "Expected \"cup\"" (place 1) "\"cake\"", t) := by
  intro word place
  have fits : (place 1).Fits ⟨(place 1).text, false, false⟩ := ⟨rfl, rfl, fun plain => absurd plain Bool.false_ne_true⟩
  have forward (w : String) (s : Session) (o : Outcome) (t : Session) (ran : word w (place 1) s = .ok (o, t)) :
      1 ≤ o.index := by
    obtain ⟨⟨o', u⟩, inner, same⟩ := bind_eq_ok.1 ran
    cases same
    obtain ⟨o', read, same⟩ := bind_eq_ok.1 inner
    cases same
    obtain ⟨o', read', follows⟩ := Prim.run_follows (.literal w) fits
    cases read.symm.trans read'
    exact follows.le
  obtain ⟨t, marks, fail⟩ : ∃ t, t.journal.trace.length = 4 ∧ AllFail (place 1) [word "cat", word "cup"] {}
      [⟨"Expected \"cat\"", place 3, "\"ke\""⟩, ⟨"Expected \"cup\"", place 2, "\"ake\""⟩] t :=
    ⟨_, rfl, .next rfl (.next rfl (.none _))⟩
  have never : ∀ q ∈ [word "cat", word "cup"], ∀ s o t, q (place 1) s = .ok (o, t) → (place 1).index ≤ o.index := by
    simpa using ⟨forward "cat", forward "cup"⟩
  obtain ⟨report, last, isLast, ran, le, ran'⟩ :=
    (choice_agrees_with_attempts (word "cat") [word "cup"] (place 1) {} "cake".toList rfl never).2.2 _ _ fail
  cases isLast
  exact ⟨report, t, marks, le, ran, ran'⟩

namespace Runner

/-- An alternative to the runner is run, whatever it is, from the same cursor and in the same session. -/
def GivesWay (p : Runner) (c : Cursor) (s : Session) : Prop :=
  ∀ q, p.orElse q c s = q c s

def Commits (p : Runner) (c : Cursor) (s : Session) : Prop :=
  ∀ q, p.orElse q c s = p c s

theorem Commits.not_givesWay {o : Outcome} (commits : p.Commits c s) (ran : p c s = .ok (o, t)) :
    ¬p.GivesWay c s := by
  intro givesWay
  -- an alternative that halts would show
  have halts := (commits exhausted).symm.trans (givesWay exhausted)
  rw [ran] at halts
  cases halts

theorem givesWay_or_commits {o : Outcome} (ran : p c s = .ok (o, s)) :
    (o.isSuccess = false ∧ o.index = c.index) ∧ p.GivesWay c s ∨
      ¬(o.isSuccess = false ∧ o.index = c.index) ∧ p.Commits c s := by
  cases o with
  | success v d =>
      refine .inr ⟨by simp [Outcome.isSuccess], fun q => ?_⟩
      simp only [orElse, ran, ok_bind]
      rfl
  | failure message d found =>
      by_cases here : d.index = c.index
      · refine .inl ⟨⟨rfl, here⟩, fun q => ?_⟩
        simp only [orElse, ran, ok_bind, if_pos here]
      · refine .inr ⟨fun fails => here fails.2, fun q => ?_⟩
        simp only [orElse, ran, ok_bind, if_neg here]
        rfl

theorem givesWay_iff {o : Outcome} (ran : p c s = .ok (o, s)) :
    p.GivesWay c s ↔ o.isSuccess = false ∧ o.index = c.index := by
  rcases givesWay_or_commits ran with ⟨fails, givesWay⟩ | ⟨stays, commits⟩
  · simp only [givesWay, fails, and_self]
  · simp only [commits.not_givesWay ran, stays]

theorem commits_of_not_givesWay {o : Outcome} (ran : p c s = .ok (o, s)) (stays : ¬p.GivesWay c s) :
    p.Commits c s := by
  rcases givesWay_or_commits ran with ⟨-, givesWay⟩ | ⟨-, commits⟩
  · exact absurd givesWay stays
  · exact commits

end Runner

end ParseEngine
