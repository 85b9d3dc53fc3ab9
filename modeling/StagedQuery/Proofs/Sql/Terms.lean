import StagedQuery.Proofs.Sql.Reading

/-!
# Terms of Expressions

The terms of a text are the operands of the ORs outside its parentheses.  An AND that is written
between two texts binds only the last term before it and the first term behind it, whatever else
belongs to the texts.

To see this, the reader is followed over the second text.  It does what it does over the text alone,
except in the lowest frame, which already holds what was read before.
-/

namespace StagedQuery

/-! ## Values of terms -/

namespace Truth

/-- The values of terms with an AND between them, which joins only the last value before it and the
first value behind it. -/
def meet (first : List Truth) : List Truth → List Truth
  | [] => first
  | value :: rest => first.dropLast ++ and (first.getLastD .yes) value :: rest

/-- The values of the terms of several texts with an AND between any two neighbours. -/
def chain (texts : List (List Truth)) : List Truth := texts.foldr meet [.yes]

theorem join_and_concat (values : List Truth) (value : Truth) :
    join .and (values ++ [value]) = and (join .and values) value := by
  induction values with
  | nil => simp [join]
  | cons first rest ih => rw [List.cons_append, join_and_cons, join_and_cons, ih, and_assoc]

variable {first second values : List Truth} {value last next : Truth}

theorem meet_append (h : second ≠ []) (rest : List Truth) :
    meet first (second ++ rest) = meet first second ++ rest := by
  cases second with
  | nil => exact absurd rfl h
  | cons value second => simp [meet]

/-- What the last term is joined with can be added before or after an AND. -/
theorem concat_and_eq_meet (h : values ++ [value] = meet first (second ++ [last])) :
    values ++ [and value next] = meet first (second ++ [and last next]) := by
  cases second with
  | nil =>
    obtain ⟨rfl, hvalue⟩ := List.append_inj' h rfl
    rw [List.singleton_inj.1 hvalue, and_assoc]
    rfl
  | cons head second =>
    have hnonempty : head :: second ≠ [] := List.cons_ne_nil head second
    rw [meet_append hnonempty] at h ⊢
    obtain ⟨rfl, hvalue⟩ := List.append_inj' h rfl
    rw [List.singleton_inj.1 hvalue]

theorem meet_yes (h : first ≠ []) : meet first [.yes] = first := by
  obtain ⟨before, last, rfl⟩ := List.eq_nil_or_concat first |>.resolve_left h
  simp [meet]

theorem chain_singleton (h : first ≠ []) : chain [first] = first := meet_yes h

/-- Texts of one term each are joined as a whole. -/
theorem chain_of_singletons (values : List Truth) :
    chain (values.map fun value ↦ [value]) = [join .and values] := by
  induction values with
  | nil => rfl
  | cons value rest ih =>
    rw [List.map_cons, chain, List.foldr_cons, ← chain, ih]
    rfl

end Truth

namespace Sql

/-! ## Terms that have been read -/

/-- The operands of the ORs in a frame. -/
def Frame.terms (frame : Frame) : List Expression :=
  frame.disjuncts ++ [.joined .and frame.conjuncts]

/-- The terms that have been read, if nothing is open. -/
def Reader.terms? (reader : Reader) : Option (List Expression) :=
  match reader.settled with
  | some (frame, []) => some frame.terms
  | _ => none

/-- Reads the terms of a boolean expression from a text. -/
def Expression.termsOfText? (text : String) : Option (List Expression) := do
  let tokens ← tokens? text
  let reader ← Reader.run {} tokens
  reader.terms?

/-- The expression of a text joins its terms. -/
theorem Expression.ofText?_eq_map (text : String) :
    ofText? text = (termsOfText? text).map (joined .or) := by
  have hfinish (reader : Reader) : reader.finish = reader.terms?.map (joined .or) := by
    unfold Reader.finish Reader.terms?
    rcases reader.settled with - | ⟨frame, - | ⟨enclosing, outer⟩⟩ <;> rfl
  simp only [ofText?, termsOfText?, hfinish, Option.bind_eq_bind, Option.map_bind,
    Function.comp_def]

/-- The tokens are read as an expression with the given terms. -/
def HasTerms (tokens : List Token) (terms : List Expression) : Prop :=
  ∃ reader frame, Reader.run {} tokens = some reader ∧ reader.settled = some (frame, []) ∧
    frame.terms = terms

theorem Expression.termsOfText?_eq_some_iff {text : String} {terms : List Expression} :
    termsOfText? text = some terms ↔
      ∃ tokens, tokens? text = some tokens ∧ HasTerms tokens terms := by
  have hterms (reader : Reader) : reader.terms? = some terms ↔
      ∃ frame, reader.settled = some (frame, []) ∧ frame.terms = terms := by
    unfold Reader.terms?
    split <;> simp_all
  simp only [termsOfText?, Option.bind_eq_bind, Option.bind_eq_some_iff, hterms, HasTerms]
  grind

/-! ## Readers that differ in the lowest frame -/

variable {related : Frame → Frame → Prop} {frame other : Frame} {outer others : List Frame}
  {token : Token} {tokens : List Token}

/-- A relation between frames that nothing ends that is read into both. -/
structure Persists (related : Frame → Frame → Prop) : Prop where
  push : ∀ operand frame other, related frame other →
    related (frame.push operand) (other.push operand)
  negate : ∀ frame other, related frame other → related frame.negate other.negate
  nextDisjunct : ∀ frame other, related frame other →
    related frame.nextDisjunct other.nextDisjunct

/-- The frames are the same, except that the lowest ones are only related. -/
inductive Above (related : Frame → Frame → Prop) : List Frame → List Frame → Prop
  | lowest {frame other : Frame} (h : related frame other) : Above related [frame] [other]
  | cons (frame : Frame) {outer others : List Frame} (h : Above related outer others) :
      Above related (frame :: outer) (frame :: others)

/-- Whatever is done in the current frames. -/
theorem Above.map {change : Frame → Frame}
    (hchange : ∀ frame other, related frame other → related (change frame) (change other))
    (h : Above related (frame :: outer) (other :: others)) :
    Above related (change frame :: outer) (change other :: others) := by
  cases h with
  | lowest h => exact .lowest (hchange _ _ h)
  | cons frame h => exact .cons (change frame) h

namespace Reader

/-- The readers are at the same place, and their frames differ only in the lowest one. -/
structure IsAbove (related : Frame → Frame → Prop) (reader other : Reader) : Prop where
  position : other.position = reader.position
  frames : Above related (reader.frame :: reader.outer) (other.frame :: other.outer)

variable {reader next otherReader : Reader}

theorem IsAbove.settled (hpersists : Persists related) (h : reader.IsAbove related otherReader)
    (hsettled : reader.settled = some (frame, outer)) :
    ∃ other others, otherReader.settled = some (other, others) ∧
      Above related (frame :: outer) (other :: others) := by
  obtain ⟨otherFrame, otherOuter, otherPosition⟩ := otherReader
  obtain ⟨hposition, hframes⟩ := h
  rcases settled_eq_some_iff.1 hsettled with rfl | ⟨previous, tokens, rfl, rfl⟩
  · obtain rfl : otherPosition = .complete := hposition
    exact ⟨otherFrame, otherOuter, rfl, hframes⟩
  · obtain rfl : otherPosition = .atom tokens 0 false := hposition
    exact ⟨_, otherOuter, rfl, hframes.map (hpersists.push _)⟩

theorem IsAbove.begin (hpersists : Persists related)
    (h : Above related (frame :: outer) (other :: others))
    (hbegin : begin frame outer token = some next) :
    ∃ otherNext, begin other others token = some otherNext ∧ next.IsAbove related otherNext := by
  unfold Reader.begin at hbegin ⊢
  cases hrole : token.role with
  | blank =>
    rw [hrole] at hbegin
    obtain rfl := Option.some.inj hbegin
    exact ⟨⟨other, others, .operand⟩, rfl, rfl, h⟩
  | not =>
    rw [hrole] at hbegin
    obtain rfl := Option.some.inj hbegin
    exact ⟨⟨other.negate, others, .operand⟩, rfl, rfl, h.map hpersists.negate⟩
  | opening =>
    rw [hrole] at hbegin
    obtain rfl := Option.some.inj hbegin
    exact ⟨⟨{}, other :: others, .operand⟩, rfl, rfl, .cons {} h⟩
  | other =>
    rw [hrole] at hbegin
    obtain rfl := Option.some.inj hbegin
    exact ⟨⟨other, others, .atom [token] 0 false⟩, rfl, rfl, h⟩
  | _ =>
    rw [hrole] at hbegin
    cases hbegin

theorem IsAbove.connect (hpersists : Persists related)
    (h : Above related (frame :: outer) (other :: others)) {role : Role}
    (hconnect : connect frame outer role = some next) :
    ∃ otherNext, connect other others role = some otherNext ∧ next.IsAbove related otherNext := by
  cases role with
  | and =>
    obtain rfl := Option.some.inj hconnect
    exact ⟨⟨other, others, .operand⟩, rfl, rfl, h⟩
  | or =>
    obtain rfl := Option.some.inj hconnect
    exact ⟨⟨other.nextDisjunct, others, .operand⟩, rfl, rfl, h.map hpersists.nextDisjunct⟩
  | closing =>
    cases h with
    | lowest h => cases hconnect
    | @cons frame outer others h =>
      cases outer with
      | nil => cases h
      | cons enclosing outer =>
        obtain ⟨otherEnclosing, otherOuter, rfl⟩ : ∃ first rest, others = first :: rest := by
          cases h <;> exact ⟨_, _, rfl⟩
        obtain rfl := Option.some.inj hconnect
        exact ⟨_, rfl, rfl, h.map (hpersists.push frame.expression)⟩
  | _ => cases hconnect

/-- What a reader does does not depend on its lowest frame. -/
theorem IsAbove.step (hpersists : Persists related) (h : reader.IsAbove related otherReader)
    (hstep : reader.step token = some next) :
    ∃ otherNext, otherReader.step token = some otherNext ∧ next.IsAbove related otherNext := by
  obtain ⟨frame, outer, position⟩ := reader
  obtain ⟨other, others, otherPosition⟩ := otherReader
  obtain ⟨hposition, hframes⟩ := h
  obtain rfl : otherPosition = position := hposition
  cases otherPosition with
  | operand =>
    simp only [Reader.step] at hstep ⊢
    exact begin hpersists hframes hstep
  | atom tokens depth between =>
    simp only [Reader.step] at hstep ⊢
    cases hcontinue : continueAtom (depth, between) token.role with
    | some state =>
      rw [hcontinue] at hstep
      obtain rfl := Option.some.inj hstep
      exact ⟨_, rfl, rfl, hframes⟩
    | none =>
      simp only [hcontinue, Option.bind_eq_bind, Option.bind_eq_some_iff] at hstep ⊢
      obtain ⟨⟨current, around⟩, hsettled, hconnect⟩ := hstep
      have habove : IsAbove related ⟨frame, outer, .atom tokens depth between⟩
        ⟨other, others, .atom tokens depth between⟩ := ⟨rfl, hframes⟩
      obtain ⟨otherCurrent, otherAround, hother, hcurrent⟩ := habove.settled hpersists hsettled
      obtain ⟨otherNext, hotherNext, hnext⟩ := connect hpersists hcurrent hconnect
      exact ⟨otherNext, ⟨_, hother, hotherNext⟩, hnext⟩
  | complete =>
    simp only [Reader.step] at hstep ⊢
    by_cases hblank : token.role = .blank
    · rw [if_pos hblank] at hstep ⊢
      obtain rfl := Option.some.inj hstep
      exact ⟨_, rfl, rfl, hframes⟩
    · rw [if_neg hblank] at hstep ⊢
      exact connect hpersists hframes hstep

theorem IsAbove.run (hpersists : Persists related) (h : reader.IsAbove related otherReader)
    (hrun : reader.run tokens = some next) :
    ∃ otherNext, otherReader.run tokens = some otherNext ∧ next.IsAbove related otherNext := by
  induction tokens generalizing reader otherReader with
  | nil =>
    obtain rfl := Option.some.inj hrun
    exact ⟨otherReader, rfl, h⟩
  | cons token rest ih =>
    simp only [Reader.run, List.foldlM_cons, Option.bind_eq_bind, Option.bind_eq_some_iff] at hrun
    obtain ⟨middle, hstep, hrest⟩ := hrun
    obtain ⟨otherMiddle, hotherStep, hmiddle⟩ := h.step hpersists hstep
    obtain ⟨otherNext, hotherRest, hnext⟩ := ih hmiddle hrest
    exact ⟨otherNext, by rw [run_cons hotherStep, hotherRest], hnext⟩

/-! ## Nothing is negated behind an operand -/

/-- Behind an operand no NOT waits for the next one. -/
def IsPlain (reader : Reader) : Prop :=
  reader.position = .complete → reader.frame.negations = 0

theorem IsPlain.settled (h : reader.IsPlain) (hsettled : reader.settled = some (frame, outer)) :
    frame.negations = 0 := by
  rcases settled_eq_some_iff.1 hsettled with rfl | ⟨previous, tokens, rfl, rfl⟩
  · exact h rfl
  · rfl

theorem isPlain_connect {role : Role} (h : connect frame outer role = some next) :
    next.IsPlain := by
  cases role with
  | and | or =>
    obtain rfl := Option.some.inj h
    exact Position.noConfusion
  | closing =>
    cases outer with
    | nil => cases h
    | cons enclosing outer =>
      obtain rfl := Option.some.inj h
      exact fun _ ↦ rfl
  | _ => cases h

theorem IsPlain.step (h : reader.IsPlain) (hstep : reader.step token = some next) :
    next.IsPlain := by
  obtain ⟨frame, outer, position⟩ := reader
  cases position with
  | operand =>
    simp only [Reader.step, begin] at hstep
    split at hstep <;> cases hstep <;> exact Position.noConfusion
  | atom tokens depth between =>
    simp only [Reader.step] at hstep
    split at hstep
    · obtain rfl := Option.some.inj hstep
      exact Position.noConfusion
    · obtain ⟨⟨current, around⟩, -, hconnect⟩ := Option.bind_eq_some_iff.1 hstep
      exact isPlain_connect hconnect
  | complete =>
    simp only [Reader.step] at hstep
    split at hstep
    · obtain rfl := Option.some.inj hstep
      exact h
    · exact isPlain_connect hstep

theorem IsPlain.run (h : reader.IsPlain) (hrun : reader.run tokens = some next) :
    next.IsPlain := by
  induction tokens generalizing reader with
  | nil =>
    obtain rfl := Option.some.inj hrun
    exact h
  | cons token rest ih =>
    simp only [Reader.run, List.foldlM_cons, Option.bind_eq_bind, Option.bind_eq_some_iff] at hrun
    obtain ⟨middle, hstep, hrest⟩ := hrun
    exact ih (h.step hstep) hrest

end Reader

/-! ## An AND between texts -/

/-- The values of the terms in a frame. -/
def Frame.values (assignment : String → Truth) (frame : Frame) : List Truth :=
  frame.terms.map (Expression.evaluate assignment)

theorem Expression.evaluate_joined (assignment : String → Truth) (combinator : Combinator)
    (operands : List Expression) : (joined combinator operands).evaluate assignment =
      Truth.join combinator (operands.map (evaluate assignment)) :=
  evaluate_ofGroup assignment combinator false operands

theorem Frame.values_eq (assignment : String → Truth) (frame : Frame) :
    frame.values assignment = frame.disjuncts.map (Expression.evaluate assignment) ++
      [Truth.join .and (frame.conjuncts.map (Expression.evaluate assignment))] := by
  rw [values, terms, List.map_append, List.map_singleton, Expression.evaluate_joined]

/-- The frame holds what was read in the earlier frame, an AND, and what the other frame holds. -/
structure Continues (earlier frame other : Frame) : Prop where
  negations : other.negations = frame.negations
  values : ∀ assignment,
    other.values assignment = Truth.meet (earlier.values assignment) (frame.values assignment)

theorem persists_continues (earlier : Frame) : Persists (Continues earlier) where
  push operand frame other h := by
    refine ⟨rfl, fun assignment ↦ ?_⟩
    have hvalues := h.values assignment
    simp only [Frame.values_eq, Frame.push, h.negations, List.map_append, List.map_singleton,
      Truth.join_and_concat] at hvalues ⊢
    exact Truth.concat_and_eq_meet hvalues
  negate frame other h := ⟨congrArg (· + 1) h.negations, h.values⟩
  nextDisjunct frame other h := by
    refine ⟨rfl, fun assignment ↦ ?_⟩
    have hnext (frame : Frame) :
        frame.nextDisjunct.values assignment = frame.values assignment ++ [.yes] := by
      rw [Frame.values_eq, Frame.values, Frame.terms]
      rfl
    have hnonempty : frame.values assignment ≠ [] := by
      rw [Frame.values_eq]
      exact List.concat_ne_nil _ _
    rw [hnext, hnext, h.values, Truth.meet_append hnonempty]

/-- Before anything else is read, a frame continues itself. -/
theorem continues_self {frame : Frame} (h : frame.negations = 0) : Continues frame {} frame := by
  refine ⟨h, fun assignment ↦ ?_⟩
  have hnonempty : frame.values assignment ≠ [] := by
    rw [Frame.values_eq]
    exact List.concat_ne_nil _ _
  exact (Truth.meet_yes hnonempty).symm

/-- Blanks after an operand change nothing. -/
theorem Reader.run_blanks {reader : Reader} (h : reader.settled = some (frame, outer))
    {blanks : List Token} (hblanks : ∀ token ∈ blanks, token.isBlank) :
    ∃ next, reader.run blanks = some next ∧ next.settled = some (frame, outer) := by
  induction blanks generalizing reader with
  | nil => exact ⟨reader, rfl, h⟩
  | cons token rest ih =>
    obtain ⟨htoken, hrest⟩ := List.forall_mem_cons.1 hblanks
    cases token with
    | blank c =>
      obtain ⟨middle, hstep, hsettled⟩ := step_blank h c
      obtain ⟨next, hrun, hnext⟩ := ih hsettled hrest
      exact ⟨next, by rw [run_cons hstep, hrun], hnext⟩
    | _ => cases htoken

/-- An AND behind blanks. -/
def Token.conjunction (blanks : List Token) : List Token :=
  blanks ++ [.word "AND".toList, space]

/-- An AND between two texts joins the last term before it and the first term behind it. -/
theorem HasTerms.append {first second blanks : List Token} {terms others : List Expression}
    (hfirst : HasTerms first terms) (hsecond : HasTerms second others)
    (hblanks : ∀ token ∈ blanks, token.isBlank) :
    ∃ all, HasTerms (first ++ Token.conjunction blanks ++ second) all ∧
      ∀ assignment, all.map (Expression.evaluate assignment) =
        Truth.meet (terms.map (Expression.evaluate assignment))
          (others.map (Expression.evaluate assignment)) := by
  obtain ⟨reader, frame, hrun, hsettled, rfl⟩ := hfirst
  obtain ⟨other, last, hotherRun, hotherSettled, rfl⟩ := hsecond
  have hstart : Reader.IsPlain {} := Position.noConfusion
  have hplain := (hstart.run hrun).settled hsettled
  obtain ⟨next, hnext, hnextSettled⟩ := Reader.run_blanks hsettled hblanks
  have hand : next.step (.word "AND".toList) = some ⟨frame, [], .operand⟩ :=
    Reader.step_connective hnextSettled (.inl (by decide))
  have hbegin : Reader.IsAbove (Continues frame) {} ⟨frame, [], .operand⟩ :=
    ⟨rfl, .lowest (continues_self hplain)⟩
  obtain ⟨final, hfinal, habove⟩ := hbegin.run (persists_continues frame) hotherRun
  obtain ⟨current, around, hcurrent, hframes⟩ :=
    habove.settled (persists_continues frame) hotherSettled
  obtain ⟨rfl, hcontinues⟩ : around = [] ∧ Continues frame last current := by
    cases hframes with
    | lowest h => exact ⟨rfl, h⟩
    | cons frame h => cases h
  refine ⟨current.terms, ⟨final, current, ?_, hcurrent, rfl⟩, hcontinues.values⟩
  have hgap : reader.run (Token.conjunction blanks) = some ⟨frame, [], .operand⟩ := by
    rw [Token.conjunction, Reader.run_append hnext, Reader.run_cons hand]
    rfl
  rw [List.append_assoc, Reader.run_append hrun, Reader.run_append hgap, hfinal]

end Sql

end StagedQuery
