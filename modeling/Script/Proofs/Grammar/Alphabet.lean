import Script.Proofs.Joining

/-!
# The alphabet of programs

Six kinds of tokens stand in no program: what is no word, the marks that only
exist to be named, and the word `break`. So a text that is read as a tree holds
no unknown token, and the check for one only decides how a text fails.
-/

set_option autoImplicit false

namespace Script

def Token.InPrograms : Token → Prop
  | .unknown _ | .breakWord | .lineComment | .blockComment | .bang | .newline => False
  | _ => True

theorem Operator.token_inPrograms (op : Operator) : op.token.InPrograms := by
  cases op <;> trivial

namespace Grammar

def Spoken (w : List Token) : Prop :=
  ∀ t ∈ w, t.InPrograms

theorem Spoken.nil : Spoken [] :=
  List.forall_mem_nil _

theorem Spoken.cons {t : Token} {w : List Token} (ht : t.InPrograms) (hw : Spoken w) :
    Spoken (t :: w) :=
  List.forall_mem_cons.2 ⟨ht, hw⟩

theorem Spoken.append {u v : List Token} (hu : Spoken u) (hv : Spoken v) : Spoken (u ++ v) :=
  List.forall_mem_append.2 ⟨hu, hv⟩

theorem Spoken.snoc {t : Token} {w : List Token} (hw : Spoken w) (ht : t.InPrograms) :
    Spoken (w ++ [t]) :=
  hw.append (.cons ht .nil)

theorem spoken_atom {t : Token} {e : Expr} (h : Atom t e) : Spoken [t] := by
  cases h <;> exact .cons trivial .nil

mutual

theorem spoken_chain {l : Level} {w : List Token} {e : Expr} (h : Chain l w e) : Spoken w := by
  match h with
  | .operand h => exact spoken_operand h
  | .join ha _ hb => exact (spoken_chain ha).append (.cons (Operator.token_inPrograms _)
      (spoken_operand hb))
termination_by structural h

theorem spoken_operand {l : Level} {w : List Token} {e : Expr} (h : Operand l w e) :
    Spoken w := by
  match h with
  | .comparison h => exact spoken_chain h
  | .additive h => exact spoken_chain h
  | .multiplicative h => exact spoken_unary h
termination_by structural h

theorem spoken_unary {w : List Token} {e : Expr} (h : Unary w e) : Spoken w := by
  match h with
  | .minus h => exact .cons trivial (spoken_unary h)
  | .plus h => exact .cons trivial (spoken_unary h)
  | .call h => exact .cons trivial (.cons trivial ((spoken_arguments h).snoc trivial))
  | .group h => exact .cons trivial ((spoken_chain h).snoc trivial)
  | .atom h => exact spoken_atom h
termination_by structural h

theorem spoken_arguments {w : List Token} {es : List Expr} (h : Arguments w es) : Spoken w := by
  match h with
  | .none => exact .nil
  | .some h => exact spoken_argumentList h
termination_by structural h

theorem spoken_argumentList {w : List Token} {es : List Expr} (h : ArgumentList w es) :
    Spoken w := by
  match h with
  | .last h => exact spoken_chain h
  | .more h hs => exact (spoken_chain h).append (.cons trivial (spoken_argumentList hs))
termination_by structural h

end

theorem spoken_condition {w : List Token} {c : Expr} (h : Condition w c) : Spoken w := by
  obtain ⟨h⟩ := h
  exact .cons trivial ((spoken_chain h).snoc trivial)

mutual

theorem spoken_clause {d : Bool} {w : List Token} {s : Statement} (h : Clause d w s) :
    Spoken w := by
  match h with
  | .expression h => exact (spoken_chain h).snoc trivial
  | .assign h => exact .cons trivial (.cons trivial ((spoken_chain h).snoc trivial))
  | .branch h => exact spoken_branch h
  | .loop hc hb => exact .cons trivial ((spoken_condition hc).append (spoken_block hb))
termination_by structural h

theorem spoken_branch {d : Bool} {w : List Token} {s : Statement} (h : Branch d w s) :
    Spoken w := by
  match h with
  | .alone hc hb => exact .cons trivial ((spoken_condition hc).append (spoken_block hb))
  | .withElse hc hb ho =>
    exact .cons trivial ((spoken_condition hc).append
      ((spoken_block hb).append (.cons trivial (spoken_block ho))))
  | .withElseIf hc hb hs =>
    exact .cons trivial ((spoken_condition hc).append
      ((spoken_block hb).append (.cons trivial (spoken_branch hs))))
termination_by structural h

theorem spoken_block {w : List Token} {ss : List Statement} (h : Block w ss) : Spoken w := by
  match h with
  | .mk h => exact .cons trivial ((spoken_series h).snoc trivial)
termination_by structural h

theorem spoken_series {w : List Token} {ss : List Statement} (h : Series w ss) : Spoken w := by
  match h with
  | .nil => exact .nil
  | .cons h hs => exact (spoken_clause h).append (spoken_series hs)
termination_by structural h

end

theorem spoken_parameters {w : List Token} {xs : List String} (h : Parameters w xs) :
    Spoken w := by
  induction h with
  | none => exact .nil
  | last x => exact .cons trivial .nil
  | more _ ih => exact .cons trivial (.cons trivial ih)

theorem spoken_topClause {d : Bool} {w : List Token} {s : Statement} (h : TopClause d w s) :
    Spoken w := by
  cases h with
  | clause h => exact spoken_clause h
  | define hp hb =>
    exact .cons trivial (.cons trivial (.cons trivial
      ((spoken_parameters hp).append (.cons trivial (spoken_block hb)))))

/-- A program is made of the tokens of the alphabet alone. -/
theorem spoken_program {w : List Token} {ss : List Statement} (h : Program w ss) : Spoken w := by
  induction h with
  | nil => exact .nil
  | cons h _ ih => exact (spoken_topClause h).append ih

end Grammar

theorem firstUnknown?_of_parse {ts : List Located} {s : Source} (h : parse ts = .ok s) :
    firstUnknown? ts = none := by
  have hspoken := Grammar.spoken_program (Grammar.program_of_parse h)
  refine firstUnknown?_eq_none_iff.2 fun t ht text hunknown => ?_
  have hin := hspoken _ (List.mem_map_of_mem ht)
  rw [hunknown] at hin
  exact hin

theorem read_eq_ok_iff_parse {text : String} {s : Source} :
    read text = .ok s ↔ parse (tokenize text) = .ok s := by
  rw [read_eq_ok_iff]
  exact ⟨fun h => h.2, fun h => ⟨firstUnknown?_of_parse h, h⟩⟩

theorem read_of_program {text : String} {ss : List Statement}
    (h : Grammar.Program (Piece.lexed text.toList) ss) : read text = .ok ⟨ss⟩ := by
  rw [← Piece.map_token_tokenize] at h
  exact read_eq_ok_iff_parse.2 (Grammar.parse_of_program h)

end Script
