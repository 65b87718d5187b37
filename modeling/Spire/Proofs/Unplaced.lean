import Spire.Proofs.Program
import Spire.Proofs.Lexer.Cover

/-!
# Tokens without their places

Much of what a token means depends on its kind and its text alone. To say so, a token is put
at the start of a text: two tokens that become equal in this way have the same kind and the
same text, wherever they stand. The same is done to whole transcripts, and it goes through
the operations on them.

## Main definitions

* `Token.unplaced`, `Transcript.unplaced` — tokens put at the start of a text

## Main results

* `Transcript.unplaced_append`, `Transcript.unplaced_flatMap` — transcripts without places,
  in turn and within each other
-/

namespace Spire

namespace Token

/-- A token put at the start of a text: what is left of it when its place does not matter. -/
def unplaced (t : Token) : Token :=
  { t with position := {} }

variable {t : Token} {ts : List Token}

@[simp] theorem kind_unplaced : t.unplaced.kind = t.kind := rfl

@[simp] theorem raw_unplaced : t.unplaced.raw = t.raw := rfl

@[simp] theorem unplaced_unplaced : t.unplaced.unplaced = t.unplaced := rfl

@[simp] theorem kinds_map_unplaced : kinds (ts.map unplaced) = kinds ts := by
  simp [kinds]

end Token

namespace Transcript

/-- A transcript with all tokens put at the start of a text. -/
def unplaced (ts : Transcript) : Transcript :=
  ts.map Token.unplaced

variable {ts us : Transcript} {f : Token → Transcript}

theorem unplaced_cons (t : Token) : (cons t ts).unplaced = cons t.unplaced ts.unplaced := rfl

theorem map_append (f : Token → Token) : (ts ++ us).map f = ts.map f ++ us.map f := by
  obtain ⟨tokens, _ | fault⟩ := ts
  · simp only [mk_none_append, map, List.map_append]
  · rfl

theorem filter_append (keep : Token → Bool) :
    (ts ++ us).filter keep = ts.filter keep ++ us.filter keep := by
  obtain ⟨tokens, _ | fault⟩ := ts
  · simp only [mk_none_append, filter, List.filter_append]
  · rfl

theorem append_of_fault?_eq_none (noFault : ts.fault? = none) :
    ts ++ us = ⟨ts.tokens ++ us.tokens, us.fault?⟩ := by
  obtain ⟨tokens, fault?⟩ := ts
  cases noFault
  rfl

/-- One transcript after another has the tokens of the first, and those of the second if the
first has no fault. -/
theorem tokens_append :
    (ts ++ us).tokens = ts.tokens ++ if ts.fault? = none then us.tokens else [] := by
  obtain ⟨tokens, _ | fault⟩ := ts
  · rfl
  · exact (List.append_nil tokens).symm

theorem fault?_append_eq_none (noFault : (ts ++ us).fault? = none) :
    ts.fault? = none ∧ us.fault? = none := by
  obtain ⟨tokens, _ | fault⟩ := ts
  · exact ⟨rfl, noFault⟩
  · cases noFault

/-- A token of two transcripts in turn is one of the first, or else the first has no fault and it
is one of the second. -/
theorem tokens_append_eq {before after : List Token} {t : Token}
    (whole : (ts ++ us).tokens = before ++ t :: after) :
    (∃ later, ts.tokens = before ++ t :: later) ∨
      ts.fault? = none ∧ ∃ more, before = ts.tokens ++ more ∧ us.tokens = more ++ t :: after := by
  have inSecond (more : List Token) (split : before = ts.tokens ++ more)
      (others : (if ts.fault? = none then us.tokens else []) = more ++ t :: after) :
      ts.fault? = none ∧ ∃ more, before = ts.tokens ++ more ∧ us.tokens = more ++ t :: after := by
    split at others
    · next noFault => exact ⟨noFault, more, split, others⟩
    · simp at others
  rw [tokens_append] at whole
  rcases List.append_eq_append_iff.mp whole with ⟨more, split, others⟩ | ⟨more, split, others⟩
  · exact .inr (inSecond more split others)
  · cases more with
    | nil =>
      rw [List.append_nil] at split
      exact .inr (inSecond [] (by rw [split, List.append_nil]) others.symm)
    | cons u more =>
      obtain ⟨rfl, -⟩ := List.cons.inj others
      exact .inl ⟨more, split⟩

theorem mem_of_mem_append {t : Token} (member : t ∈ (ts ++ us).tokens) :
    t ∈ ts.tokens ∨ t ∈ us.tokens := by
  rw [tokens_append, List.mem_append] at member
  refine member.imp_right fun later => ?_
  split at later
  · exact later
  · cases later

theorem unplaced_append : (ts ++ us).unplaced = ts.unplaced ++ us.unplaced :=
  map_append Token.unplaced

/-- Tokens in turn are replaced in turn. -/
theorem flatMap_append (tokens more : List Token) (fault? : Option LexFault) :
    flatMap f ⟨tokens ++ more, fault?⟩ = flatMap f ⟨tokens, none⟩ ++ flatMap f ⟨more, fault?⟩ := by
  induction tokens with
  | nil => rfl
  | cons t tokens ih =>
    change f t ++ flatMap f ⟨tokens ++ more, fault?⟩ = f t ++ flatMap f ⟨tokens, none⟩ ++ _
    rw [ih, append_assoc]

/-- What is done to each replacement is done to the whole, if it goes through `++`. -/
theorem apply_flatMap {h : Transcript → Transcript} (goes : ∀ a b, h (a ++ b) = h a ++ h b)
    (keeps : ∀ fault?, h ⟨[], fault?⟩ = ⟨[], fault?⟩) :
    h (ts.flatMap f) = ts.flatMap fun t => h (f t) := by
  obtain ⟨tokens, fault?⟩ := ts
  induction tokens with
  | nil => exact keeps fault?
  | cons t tokens ih =>
    change h (f t ++ flatMap f ⟨tokens, fault?⟩) = h (f t) ++ _
    rw [goes, ih]
    rfl

theorem map_flatMap (g : Token → Token) : (ts.flatMap f).map g = ts.flatMap fun t => (f t).map g :=
  apply_flatMap (fun _ _ => map_append g) fun _ => rfl

theorem filter_flatMap (keep : Token → Bool) :
    (ts.flatMap f).filter keep = ts.flatMap fun t => (f t).filter keep :=
  apply_flatMap (fun _ _ => filter_append keep) fun _ => rfl

theorem unplaced_flatMap : (ts.flatMap f).unplaced = ts.flatMap fun t => (f t).unplaced :=
  map_flatMap Token.unplaced

end Transcript

end Spire
