/-!
Characters and the byte offsets between them. A text is a list of characters, an offset counts the bytes of
its UTF-8 form, and only some offsets fall between two characters.
-/

namespace ParseEngine.Text

def byteLength : List Char → Nat
  | [] => 0
  | c :: rest => c.utf8Size + byteLength rest

/-- The text from an offset on, if the offset falls between two characters. -/
def dropBytes? : Nat → List Char → Option (List Char)
  | 0, text => some text
  | _ + 1, [] => none
  | n + 1, c :: rest => if c.utf8Size ≤ n + 1 then dropBytes? (n + 1 - c.utf8Size) rest else none

def takeBytes : Nat → List Char → List Char
  | _, [] => []
  | n, c :: rest => if c.utf8Size ≤ n then c :: takeBytes (n - c.utf8Size) rest else []

def floorOffset (n : Nat) (text : List Char) : Nat :=
  byteLength (takeBytes n text)

@[simp] theorem byteLength_nil : byteLength [] = 0 := rfl

@[simp] theorem byteLength_cons (c : Char) (rest : List Char) :
    byteLength (c :: rest) = c.utf8Size + byteLength rest := rfl

@[simp] theorem byteLength_append (first second : List Char) :
    byteLength (first ++ second) = byteLength first + byteLength second := by
  induction first with
  | nil => simp
  | cons c rest ih => simp [ih, Nat.add_assoc]

theorem byteLength_pos {text : List Char} (nonempty : text ≠ []) : 0 < byteLength text := by
  obtain ⟨ch, rest, rfl⟩ := List.exists_cons_of_ne_nil nonempty
  exact Nat.lt_of_lt_of_le ch.utf8Size_pos (Nat.le_add_right _ _)

theorem dropBytes?_eq_some {n : Nat} {text rest : List Char} (dropped : dropBytes? n text = some rest) :
    ∃ taken, text = taken ++ rest ∧ byteLength taken = n := by
  induction text generalizing n with
  | nil =>
      cases n with
      | zero => exact ⟨[], by simpa [dropBytes?] using dropped, rfl⟩
      | succ n => simp [dropBytes?] at dropped
  | cons c tail ih =>
      cases n with
      | zero => exact ⟨[], by simpa [dropBytes?] using dropped, rfl⟩
      | succ n =>
          rw [dropBytes?] at dropped
          split at dropped
          · obtain ⟨taken, split, size⟩ := ih dropped
            exact ⟨c :: taken, by simp [split], by rw [byteLength_cons, size]; omega⟩
          · simp at dropped

theorem dropBytes?_append (taken rest : List Char) :
    dropBytes? (byteLength taken) (taken ++ rest) = some rest := by
  induction taken with
  | nil => rw [byteLength_nil, List.nil_append]; cases rest <;> rfl
  | cons c tail ih =>
      obtain ⟨n, size⟩ : ∃ n, byteLength (c :: tail) = n + 1 :=
        ⟨c.utf8Size - 1 + byteLength tail, by have := c.utf8Size_pos; simp; omega⟩
      rw [size, List.cons_append, dropBytes?]
      have length : c.utf8Size + byteLength tail = n + 1 := size
      rw [if_pos (by omega), show n + 1 - c.utf8Size = byteLength tail by omega, ih]

end ParseEngine.Text
