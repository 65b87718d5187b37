import Spire.Proofs.Lexer.Segmentation

/-!
# Words and the tokens inside them

A word is a row of runs, in turn of operator characters and of others, and splitting it goes
run by run. So what is said of the tokens inside words is shown for one run and for a run in
front of a word: which tokens they are, that no two of them in a row are words again, and that
they do not depend on the place of the word.

A word that is cut off behind some of its tokens has these tokens, as long as none of them
could have become the first half of a longer operator.

## Main definitions

* `OperatorRun.split`, `OperatorRun.readRun` — the tokens inside a word, and inside a run
* `OperatorRun.IsPiece` — what the tokens inside a word look like
* `Spelling.opensPair` — the kinds of operators that another character may continue

## Main results

* `OperatorRun.split_append`, `OperatorRun.runs_induction` — words run by run
* `OperatorRun.isPiece_of_mem_split`, `OperatorRun.isChain_split` — the tokens inside a word
* `OperatorRun.split_of_prefix` — the tokens of a word that is cut off behind some of its tokens
-/

namespace Spire

namespace Spelling

variable {text : List Char} {kind : Token.Kind} {word : String}

theorem mem_operators (found : operator? text = some kind) :
    (String.ofList text, kind) ∈ operators := by
  obtain ⟨before, after, whole, -⟩ := List.lookup_eq_some_iff.mp found
  rw [whole]
  exact List.mem_append_right before (List.mem_cons_self ..)

theorem mem_keywords (found : keyword? word = some kind) : (word, kind) ∈ keywords := by
  obtain ⟨before, after, whole, -⟩ := List.lookup_eq_some_iff.mp found
  rw [whole]
  exact List.mem_append_right before (List.mem_cons_self ..)

/-- The kinds of the operators that are the first half of longer ones. -/
def opensPair (kind : Token.Kind) : Bool :=
  [Token.Kind.add, .sub, .lt, .gt].contains kind

/-- An operator that opens no pair is not continued by another character. -/
theorem operator?_pair_eq_none {c d : Char} (single : operator? [c] = some kind)
    (closed : opensPair kind = false) : operator? [c, d] = none := by
  have firsts : operators.all (fun entry => entry.1.toList.length == 1 ||
      (operator? (entry.1.toList.take 1)).any opensPair) = true := by
    decide
  cases pair : operator? [c, d] with
  | none => rfl
  | some longer =>
    have opens := List.all_eq_true.mp firsts _ (mem_operators pair)
    simp [single, closed] at opens

end Spelling

namespace OperatorRun

variable {isOperator : Char → Bool} {p q : Position} {run rest word : List Char} {b : Bool}

/-- The tokens of a run: operators if it consists of operator characters, and else one word. -/
def readRun (operator : Bool) (p : Position) (run : List Char) : Transcript :=
  if operator then read p run else ⟨[⟨.unknown, String.ofList run, p⟩], none⟩

/-- The tokens inside a word that starts at `p`. -/
def split (isOperator : Char → Bool) (p : Position) (word : List Char) : Transcript :=
  readAll isOperator p (runs isOperator word)

theorem pieces_of_unknown {t : Token} (unknown : t.kind = .unknown) :
    pieces isOperator t = split isOperator t.position t.raw.toList :=
  if_pos unknown

theorem pieces_of_not_unknown {t : Token} (other : t.kind ≠ .unknown) :
    pieces isOperator t = ⟨[t], none⟩ :=
  if_neg other

@[simp] theorem split_nil : split isOperator p [] = {} := rfl

/-! ### Words run by run -/

theorem isChain_of_forall_eq (agree : ∀ c ∈ run, isOperator c = b) :
    run.IsChain fun c d => isOperator c == isOperator d := by
  refine (List.pairwise_of_forall_mem_list fun c isIn d alsoIn => ?_).isChain
  rw [agree c isIn, agree d alsoIn]
  exact beq_self_eq_true b

/-- A word that begins with a run, which ends there, is this run and the runs behind it. -/
theorem runs_append (nonempty : run ≠ []) (agree : ∀ c ∈ run, isOperator c = b)
    (differs : ∀ d ∈ rest.head?, isOperator d ≠ b) :
    runs isOperator (run ++ rest) = run :: runs isOperator rest := by
  unfold runs
  rw [List.splitBy_append, List.splitBy_of_isChain nonempty (isChain_of_forall_eq agree)]
  · rfl
  · intro c isLast d isNext
    rw [agree c (List.mem_of_getLast? isLast), beq_eq_false_iff_ne]
    exact (differs d isNext).symm

/-- A word that begins with a run has the tokens of the run and those of the rest. -/
theorem split_append (p : Position) (nonempty : run ≠ []) (agree : ∀ c ∈ run, isOperator c = b)
    (differs : ∀ d ∈ rest.head?, isOperator d ≠ b) :
    split isOperator p (run ++ rest) =
      readRun b p run ++ split isOperator (p.right run.length) rest := by
  obtain ⟨c, others, rfl⟩ := List.exists_cons_of_ne_nil nonempty
  have operators : isOperatorRun isOperator (c :: others) = b := agree c (List.mem_cons_self ..)
  rw [split, runs_append nonempty agree differs, readAll, operators]
  rfl

theorem split_run (p : Position) (nonempty : run ≠ []) (agree : ∀ c ∈ run, isOperator c = b) :
    split isOperator p run = readRun b p run := by
  have whole : split isOperator p (run ++ []) = readRun b p run ++ split isOperator _ [] :=
    split_append p nonempty agree nofun
  rwa [List.append_nil, split_nil, Transcript.append_nil] at whole

/-- What holds of the empty word, and of a word when it holds behind its first run, holds of
all words. -/
theorem runs_induction (isOperator : Char → Bool) {P : List Char → Prop} (nil : P [])
    (append : ∀ (b : Bool) (run rest : List Char), run ≠ [] → (∀ c ∈ run, isOperator c = b) →
      (∀ d ∈ rest.head?, isOperator d ≠ b) → P rest → P (run ++ rest))
    (word : List Char) : P word := by
  match word with
  | [] => exact nil
  | c :: rest =>
    have whole := append (isOperator c) (c :: rest.takeWhile fun d => isOperator d == isOperator c)
      (rest.dropWhile fun d => isOperator d == isOperator c) (List.cons_ne_nil _ _) ?_ ?_
      (runs_induction isOperator nil append _)
    · rwa [List.cons_append, List.takeWhile_append_dropWhile] at whole
    · intro d member
      rcases List.mem_cons.mp member with rfl | inside
      · rfl
      · simpa using List.mem_takeWhile_imp inside
    · intro d isNext
      exact beq_eq_false_iff_ne.mp (Segment.head?_dropWhile d isNext)
termination_by word.length
decreasing_by exact Nat.lt_succ_of_le (List.dropWhile_sublist _).length_le

/-! ### The tokens inside a word -/

/-- What the tokens inside a word look like: words without operator characters, and operators
in their spellings. -/
inductive IsPiece (isOperator : Char → Bool) (word : List Char) (t : Token) : Prop where
  | word (unknown : t.kind = .unknown) (nonempty : t.raw.toList ≠ [])
      (solid : ∀ c ∈ t.raw.toList, c ∈ word ∧ isOperator c = false)
  | operator (spelled : Spelling.operator? t.raw.toList = some t.kind)

theorem operator?_of_mem_read {t : Token} (member : t ∈ (read p run).tokens) :
    Spelling.operator? t.raw.toList = some t.kind := by
  induction run generalizing p with
  | nil => cases member
  | cons c rest ih =>
    rw [read] at member
    split at member
    · next kind whole =>
      obtain rfl := List.mem_singleton.mp member
      rwa [String.toList_ofList]
    split at member
    · next kind single =>
      rcases List.mem_cons.mp member with rfl | later
      · rwa [String.toList_ofList]
      · exact ih later
    · cases member

theorem isPiece_of_mem_readRun {t : Token} (nonempty : run ≠ [])
    (agree : ∀ c ∈ run, isOperator c = b) (member : t ∈ (readRun b p run).tokens) :
    IsPiece isOperator run t := by
  cases b with
  | true => exact .operator (operator?_of_mem_read member)
  | false =>
    obtain rfl := List.mem_singleton.mp member
    refine .word rfl ?_ ?_
    · rwa [String.toList_ofList]
    · intro c inside
      rw [String.toList_ofList] at inside
      exact ⟨inside, agree c inside⟩

theorem IsPiece.mono {more : List Char} {t : Token} (piece : IsPiece isOperator word t)
    (inside : word ⊆ more) : IsPiece isOperator more t := by
  cases piece with
  | word unknown nonempty solid =>
    exact .word unknown nonempty fun c member => ⟨inside (solid c member).1, (solid c member).2⟩
  | operator spelled => exact .operator spelled

theorem isPiece_of_mem_split {t : Token} (member : t ∈ (split isOperator p word).tokens) :
    IsPiece isOperator word t := by
  induction word using runs_induction isOperator generalizing p with
  | nil => cases member
  | append b run rest nonempty agree differs ih =>
    rw [split_append p nonempty agree differs] at member
    rcases Transcript.mem_of_mem_append member with first | later
    · exact (isPiece_of_mem_readRun nonempty agree first).mono (List.subset_append_left run rest)
    · exact (ih later).mono (List.subset_append_right run rest)

theorem operator?_ne_unknown {text : List Char} : Spelling.operator? text ≠ some .unknown := by
  have kinds : Spelling.operators.all (fun entry => entry.2 != .unknown) = true := by decide
  intro found
  exact absurd (List.all_eq_true.mp kinds _ (Spelling.mem_operators found)) (by simp)

/-- The operators of a run are no words. -/
theorem kind_ne_unknown_of_mem_read {t : Token} (member : t ∈ (read p run).tokens) :
    t.kind ≠ .unknown := by
  intro unknown
  have spelled := operator?_of_mem_read member
  rw [unknown] at spelled
  exact operator?_ne_unknown spelled

theorem isChain_readRun :
    (readRun b p run).tokens.IsChain fun s t => s.kind = .unknown → t.kind ≠ .unknown := by
  cases b with
  | false => exact .singleton _
  | true =>
    refine (List.pairwise_of_forall_mem_list fun s isIn t _ unknown => ?_).isChain
    exact absurd unknown (kind_ne_unknown_of_mem_read isIn)

/-- The tokens of a run spell it, unless there is a fault. -/
theorem text_readRun (noFault : (readRun b p run).fault? = none) :
    Token.text (readRun b p run).tokens = run := by
  cases b with
  | false => simp [readRun]
  | true => exact flatMap_read_tokens p run noFault

theorem readRun_tokens_ne_nil (nonempty : run ≠ []) (noFault : (readRun b p run).fault? = none) :
    (readRun b p run).tokens ≠ [] := by
  intro empty
  have spelled := text_readRun noFault
  rw [empty] at spelled
  exact nonempty spelled.symm

/-- Only a run of other characters is a word. -/
theorem eq_false_of_unknown {t : Token} (member : t ∈ (readRun b p run).tokens)
    (unknown : t.kind = .unknown) : b = false := by
  cases b with
  | false => rfl
  | true => exact absurd unknown (kind_ne_unknown_of_mem_read member)

/-- In a word no two words follow each other, and a word comes first only if the first character
is no operator character. -/
theorem isChain_split (p : Position) (word : List Char) :
    ((split isOperator p word).tokens.IsChain fun s t => s.kind = .unknown → t.kind ≠ .unknown) ∧
      ∀ t ∈ (split isOperator p word).tokens.head?, t.kind = .unknown →
        ∃ c ∈ word.head?, isOperator c = false := by
  induction word using runs_induction isOperator generalizing p with
  | nil => exact ⟨.nil, nofun⟩
  | append b run rest nonempty agree differs ih =>
    obtain ⟨chain, starts⟩ := ih (p.right run.length)
    rw [split_append p nonempty agree differs, Transcript.tokens_append]
    constructor
    · refine List.isChain_append.mpr ⟨isChain_readRun, ?_, ?_⟩
      · split
        · exact chain
        · exact .nil
      · intro s isLast t isNext unknown alsoUnknown
        have isWord : b = false := eq_false_of_unknown (List.mem_of_getLast? isLast) unknown
        split at isNext
        · obtain ⟨d, isFirst, other⟩ := starts t isNext alsoUnknown
          exact differs d isFirst (other.trans isWord.symm)
        · cases isNext
    · intro t isFirst unknown
      have member : t ∈ (readRun b p run).tokens := by
        split at isFirst
        · next noFault =>
          obtain ⟨u, others, same⟩ :=
            List.exists_cons_of_ne_nil (readRun_tokens_ne_nil nonempty noFault)
          rw [same] at isFirst ⊢
          cases isFirst
          exact List.mem_cons_self ..
        · rw [List.append_nil] at isFirst
          exact List.mem_of_mem_head? isFirst
      obtain ⟨c, others, rfl⟩ := List.exists_cons_of_ne_nil nonempty
      have isWord : b = false := eq_false_of_unknown member unknown
      exact ⟨c, rfl, (agree c (List.mem_cons_self ..)).trans isWord⟩

/-! ### Words that are cut off -/

/-- The operators of a run that is cut off behind some of them are the same, if none of them
could have become the first half of a longer operator. -/
theorem read_of_prefix {before after : List Token} {t : Token}
    (whole : (read p run).tokens = before ++ t :: after)
    (closed : ∀ u ∈ before, Spelling.opensPair u.kind = false) :
    read p (Token.text before) = ⟨before, none⟩ ∧ Token.text before <+: run := by
  induction run generalizing p before with
  | nil => simp [read] at whole
  | cons c rest ih =>
    cases before with
    | nil => exact ⟨rfl, List.nil_prefix⟩
    | cons u before =>
      rw [read] at whole
      split at whole
      · simp at whole
      split at whole
      · next kind single =>
        obtain ⟨rfl, later⟩ := List.cons.inj whole
        obtain ⟨same, begins⟩ := ih later fun v member => closed v (List.mem_cons_of_mem _ member)
        have opensNone : Spelling.opensPair kind = false := closed _ (List.mem_cons_self ..)
        rw [Token.text_cons, String.toList_ofList, List.singleton_append]
        refine ⟨?_, List.cons_prefix_cons.mpr ⟨rfl, begins⟩⟩
        cases cutOff : Token.text before with
        | nil =>
          rw [cutOff] at same
          cases same
          rw [read, single]
        | cons d more =>
          -- A longer operator would be this character and one more, and there is none.
          have notWhole : Spelling.operator? (c :: d :: more) = none := by
            cases found : Spelling.operator? (c :: d :: more) with
            | none => rfl
            | some longer =>
              have size := Spelling.operator?_length found
              obtain rfl : more = [] := by simpa using size
              rw [Spelling.operator?_pair_eq_none single opensNone] at found
              cases found
          rw [read, notWhole, single, ← cutOff, same]
          rfl
      · cases whole

theorem readRun_of_prefix {before after : List Token} {t : Token}
    (agree : ∀ c ∈ run, isOperator c = b)
    (whole : (readRun b p run).tokens = before ++ t :: after)
    (closed : ∀ u ∈ before, Spelling.opensPair u.kind = false) :
    split isOperator p (Token.text before) = ⟨before, none⟩ := by
  cases b with
  | false =>
    cases before with
    | nil => rfl
    | cons u before => simp [readRun] at whole
  | true =>
    obtain ⟨same, begins⟩ := read_of_prefix whole closed
    by_cases empty : Token.text before = []
    · rw [empty] at same ⊢
      exact same
    · exact (split_run p empty fun c member => agree c (begins.subset member)).trans same

/-- The tokens inside a word cover it. -/
theorem covers_split (p : Position) (oneLine : '\n' ∉ word) :
    (split isOperator p word).Covers (IsUnspelled isOperator) p word := by
  by_cases empty : word = []
  · subst empty
    exact .done
  · -- Covering is known of the pieces of tokens, so the word is made one.
    let t : Token := ⟨.unknown, String.ofList word, p⟩
    have raw : t.raw.toList = word := String.toList_ofList
    have nonempty : t.raw ≠ "" := by
      intro isEmpty
      rw [isEmpty] at raw
      exact empty raw.symm
    have covers : (pieces isOperator t).Covers (IsUnspelled isOperator) t.position t.raw.toList :=
      covers_pieces nonempty fun _ => by rwa [raw]
    rwa [pieces_of_unknown rfl, raw] at covers

/-- A word that is cut off behind some of its tokens has these tokens, if none of them could have
become the first half of a longer operator. -/
theorem split_of_prefix {before after : List Token} {t : Token} (oneLine : '\n' ∉ word)
    (whole : (split isOperator p word).tokens = before ++ t :: after)
    (closed : ∀ u ∈ before, Spelling.opensPair u.kind = false) :
    split isOperator p (Token.text before) = ⟨before, none⟩ := by
  induction word using runs_induction isOperator generalizing p before with
  | nil => simp at whole
  | append b run rest nonempty agree differs ih =>
    rw [List.mem_append, not_or] at oneLine
    rw [split_append p nonempty agree differs] at whole
    rcases Transcript.tokens_append_eq whole with ⟨later, first⟩ | ⟨noFault, more, rfl, others⟩
    · exact readRun_of_prefix agree first closed
    · have inner := ih oneLine.2 others fun u member => closed u (List.mem_append_right _ member)
      have begins : Token.text more <+: rest :=
        Transcript.Covers.text_take_prefix (covers_split _ oneLine.2) others
      have stillDiffers : ∀ d ∈ (Token.text more).head?, isOperator d ≠ b := by
        intro d isFirst
        apply differs d
        obtain ⟨behind, rfl⟩ := begins
        rw [List.head?_append, isFirst]
        rfl
      rw [Token.text_append, text_readRun noFault, split_append p nonempty agree stillDiffers,
        inner, Transcript.append_of_fault?_eq_none noFault]

end OperatorRun

end Spire
