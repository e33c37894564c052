import Script.Text.Clusters

/-!
# Lines of a text

A text is divided into lines at its newlines. In a line that has been typed
a backspace takes back the cluster of characters before it. A line is
trimmed of the characters with the property White_Space at both of its ends.
-/

set_option autoImplicit false

namespace Script.Text

def lines : List Char → List (List Char)
  | [] => []
  | '\n' :: rest => [] :: lines rest
  | c :: rest =>
    match lines rest with
    | [] => [[c]]
    | line :: more => (c :: line) :: more

def withoutBytes (count : Nat) : List Char → List Char
  | [] => []
  | c :: rest =>
    if c.utf8Size ≤ count then withoutBytes (count - c.utf8Size) rest else c :: rest

/-- How many bytes a backspace takes back of a cluster: its length, which is
counted in eight bits. -/
def takenBack (cluster : List Char) : Nat :=
  (String.ofList cluster).utf8ByteSize % 256

/-- What is left of a typed line when `kept`, last character first, is left
of the clusters so far, of which each that can still be taken back has its
length in `lengths`. -/
def retypedFrom (kept : List Char) (lengths : List Nat) : List (List Char) → List Char
  | [] => kept.reverse
  | ['\x08'] :: more =>
    match lengths with
    | [] => retypedFrom kept [] more
    | length :: lengths => retypedFrom (withoutBytes length kept) lengths more
  | cluster :: more => retypedFrom (cluster.reverse ++ kept) (takenBack cluster :: lengths) more

def retyped (line : List Char) : List Char :=
  retypedFrom [] [] (clusters line)

theorem retypedFrom_of_not_mem (kept : List Char) (lengths : List Nat)
    (cs : List (List Char)) (h : '\x08' ∉ cs.flatten) :
    retypedFrom kept lengths cs = kept.reverse ++ cs.flatten := by
  fun_induction retypedFrom kept lengths cs with
  | case1 kept lengths => simp
  | case2 | case3 => simp at h
  | case4 kept lengths cluster more _ ih =>
    rw [ih fun hm => h (by simp [hm])]
    simp

theorem retyped_of_not_mem {line : List Char} (h : '\x08' ∉ line) : retyped line = line := by
  rw [retyped, retypedFrom_of_not_mem] <;> simp [flatten_clusters, h]

theorem mem_of_mem_withoutBytes {c : Char} (count : Nat) (cs : List Char)
    (h : c ∈ withoutBytes count cs) : c ∈ cs := by
  fun_induction withoutBytes count cs with
  | case1 => exact h
  | case2 _ _ _ _ ih => exact List.mem_cons_of_mem _ (ih h)
  | case3 => exact h

theorem mem_of_mem_retypedFrom {c : Char} (kept : List Char) (lengths : List Nat)
    (cs : List (List Char)) (h : c ∈ retypedFrom kept lengths cs) : c ∈ kept ++ cs.flatten := by
  fun_induction retypedFrom kept lengths cs with
  | case1 => simpa using h
  | case2 kept more ih =>
    rw [List.flatten_cons, List.mem_append, List.mem_append]
    exact (List.mem_append.1 (ih h)).imp_right .inr
  | case3 kept more length lengths ih =>
    rw [List.flatten_cons, List.mem_append, List.mem_append]
    exact (List.mem_append.1 (ih h)).imp (mem_of_mem_withoutBytes length kept) .inr
  | case4 kept lengths cluster more _ ih =>
    have hmem := ih h
    rw [List.mem_append, List.mem_append, List.mem_reverse] at hmem
    rw [List.flatten_cons, List.mem_append, List.mem_append]
    exact or_left_comm.1 (or_assoc.1 hmem)

theorem mem_of_mem_retyped {c : Char} {line : List Char} (h : c ∈ retyped line) : c ∈ line := by
  have hmem := mem_of_mem_retypedFrom [] [] (clusters line) h
  rwa [List.nil_append, flatten_clusters] at hmem

theorem newline_not_mem_lines (text : List Char) : ∀ line ∈ lines text, '\n' ∉ line := by
  fun_induction lines text with
  | case1 => simp
  | case2 rest ih => exact List.forall_mem_cons.2 ⟨List.not_mem_nil, ih⟩
  | case3 c rest hc => simpa using Ne.symm hc
  | case4 c rest hc first more hrest ih =>
    rw [hrest, List.forall_mem_cons] at ih
    exact List.forall_mem_cons.2 ⟨List.not_mem_cons_of_ne_of_not_mem (Ne.symm hc) ih.1, ih.2⟩

theorem lines_append_newline {line : List Char} (h : '\n' ∉ line) (rest : List Char) :
    lines (line ++ '\n' :: rest) = line :: lines rest := by
  induction line with
  | nil => rfl
  | cons c line ih =>
    rw [List.mem_cons, not_or] at h
    rw [List.cons_append, lines, ih h.2]
    exact fun hc => h.1 hc.symm

theorem lines_of_not_mem {line : List Char} (h : '\n' ∉ line) (hne : line ≠ []) :
    lines line = [line] := by
  induction line with
  | nil => exact absurd rfl hne
  | cons c line ih =>
    rw [List.mem_cons, not_or] at h
    rw [lines]
    · cases line with
      | nil => rfl
      | cons d line => rw [ih h.2 nofun]
    · exact fun hc => h.1 hc.symm

/-- The property White_Space. -/
def isWhite (c : Char) : Bool :=
  let code := c.toNat
  (0x9 ≤ code && code ≤ 0xd) || code == 0x20 || code == 0x85 || code == 0xa0 ||
    code == 0x1680 || (0x2000 ≤ code && code ≤ 0x200a) || code == 0x2028 || code == 0x2029 ||
    code == 0x202f || code == 0x205f || code == 0x3000

def trim (text : List Char) : List Char :=
  ((text.dropWhile isWhite).reverse.dropWhile isWhite).reverse

end Script.Text
