import Narrative.Proofs.Expr.Grammar

/-!
This module contains the layout of the texts that are read as comparison expressions. A layout has seven parts, which
the text decides. No other text is read, so none with another operator and none with something left over.
-/

namespace Narrative

open Text

def IsNameLetter (c : Char) : Prop :=
  'A' ≤ c ∧ c ≤ 'Z' ∨ 'a' ≤ c ∧ c ≤ 'z' ∨ c = '_'

/--
A letter, and then any number of letters and digits.
-/
def IsName : List Char → Prop
  | [] => False
  | c :: rest => IsNameLetter c ∧ ∀ d ∈ rest, IsNameLetter d ∨ '0' ≤ d ∧ d ≤ '9'

inductive Operand.Spells : List Char → Operand → Prop where
  | name {s : String} (h : IsName s.toList) : Spells s.toList (.name s)
  | literal {cs : List Char} {n : Int64} (h : IsInteger cs n.toInt) : Spells cs (.literal n)

namespace Text

/--
The middle of a text is a run of a class of characters that does not go on to either side.
-/
structure IsRun (p : Char → Bool) (front run back : List Char) : Prop where
  ne_nil : run ≠ []
  all : ∀ c ∈ run, p c
  front : Stops p front.reverse
  back : Stops p back

/--
Where the characters of a class all stand together, they are the only run.
-/
theorem IsRun.eq_of_append {p : Char → Bool} {front run back before core after : List Char}
    (h : IsRun p front run back) (hbefore : ∀ c ∈ before, p c = false) (hcore : ∀ c ∈ core, p c)
    (hafter : ∀ c ∈ after, p c = false) (heq : before ++ (core ++ after) = front ++ (run ++ back)) :
    run = core := by
  obtain ⟨c, more, rfl⟩ := List.exists_cons_of_ne_nil h.ne_nil
  have hc : p c := h.all c (by simp)
  have hinside : core ++ after = (c :: more) ++ back → c :: more = core := fun hrest =>
    (append_inj_of_stops h.all h.back hcore (stops_of_forall hafter) hrest.symm).1
  rcases List.append_eq_append_iff.mp heq with ⟨between, rfl, hrest⟩ | ⟨between, rfl, hrest⟩
  · -- The run starts behind what comes before the core: at once, or behind a last character of another class.
    rcases between.eq_nil_or_concat with rfl | ⟨between, d, rfl⟩
    · exact hinside hrest
    · have hd : p d = false := h.front d (by simp)
      rcases List.append_eq_append_iff.mp hrest with ⟨inner, -, rfl⟩ | ⟨inner, rfl, -⟩
      · rw [hafter c (by simp)] at hc
        cases hc
      · rw [hcore d (by simp)] at hd
        cases hd
  · cases between with
    | nil => exact hinside hrest.symm
    | cons d between =>
      obtain ⟨rfl, -⟩ := List.cons.inj hrest
      rw [hbefore c (by simp)] at hc
      cases hc

end Text

namespace Expr

/--
The parts of a text that states a comparison. Three of them have a meaning, and four stand around and between these.
-/
@[ext]
structure Layout where
  before : List Char
  operand : List Char
  gap : List Char
  symbol : List Char
  space : List Char
  integer : List Char
  after : List Char

def Layout.chars (l : Layout) : List Char :=
  l.before ++ (l.operand ++ (l.gap ++ (l.symbol ++ (l.space ++ (l.integer ++ l.after)))))

/--
The grammar: an operand, an operator and an integer with nothing but blanks around and between them.
-/
structure Layout.States (l : Layout) (e : Expr) : Prop where
  before : Blank l.before
  operand : e.left.Spells l.operand
  gap : Blank l.gap
  symbol : e.op.Spells l.symbol
  space : Blank l.space
  integer : IsInteger l.integer e.right.toInt
  after : Blank l.after

theorem isNameStart_iff_isNameLetter {c : Char} : isNameStart c ↔ IsNameLetter c := by
  rw [isNameStart_iff]
  simp only [IsNameLetter, char_le_iff, ← Char.toNat_inj, Char.reduceToNat]

theorem isNameChar_iff_isNameLetter {c : Char} :
    isNameChar c ↔ IsNameLetter c ∨ '0' ≤ c ∧ c ≤ '9' := by
  rw [isNameChar_iff, isNameStart_iff_isNameLetter, Char.isDigit_iff_toNat, or_comm]
  rfl

theorem isName_cons {c : Char} {cs : List Char} :
    IsName (c :: cs) ↔ isNameStart c ∧ ∀ d ∈ cs, isNameChar d := by
  simp only [isNameStart_iff_isNameLetter, isNameChar_iff_isNameLetter]
  rfl

theorem spells_name_iff {cs : List Char} {s : String} : Spells cs (.name s) ↔ cs = s.toList ∧ IsName cs := by
  constructor
  · intro h
    cases h with
    | name hc hcs => exact ⟨String.toList_ofList.symm, isName_cons.mpr ⟨hc, hcs⟩⟩
  · rintro ⟨hcs, hname⟩
    cases cs with
    | nil => cases hname
    | cons c cs =>
      obtain ⟨hc, hrest⟩ := isName_cons.mp hname
      have hspells := Spells.name hc hrest
      rwa [hcs, String.ofList_toList, ← hcs] at hspells

theorem spells_operandToken {cs : List Char} {left : Operand} :
    Spells cs (operandToken left) ↔ left.Spells cs := by
  constructor
  · intro h
    cases left with
    | name s =>
      obtain ⟨rfl, hname⟩ := spells_name_iff.mp h
      exact .name hname
    | literal n =>
      cases h with
      | integer h => exact .literal h
  · intro h
    cases h with
    | name h => exact spells_name_iff.mpr ⟨rfl, h⟩
    | literal h => exact .integer h

theorem reads_iff {cs : List Char} {e : Expr} : Reads cs e ↔ ∃ l : Layout, l.chars = cs ∧ l.States e := by
  constructor
  · rintro @⟨b₀, b₁, b₂, b₃, left, symbol, right, _, h₀, hleft, h₁, hsymbol, h₂, hright, h₃⟩
    cases hsymbol with
    | operator hsymbol =>
    cases hright with
    | integer hright =>
    exact ⟨⟨b₀, left, b₁, symbol, b₂, right, b₃⟩, rfl,
      ⟨h₀, spells_operandToken.mp hleft, h₁, hsymbol, h₂, hright, h₃⟩⟩
  · rintro ⟨l, rfl, h⟩
    exact .intro h.before (spells_operandToken.mpr h.operand) h.gap (.operator h.symbol) h.space
      (.integer h.integer) h.after

/--
The characters of operands and integers. They are told apart from blanks and operators one by one.
-/
def isSolid (c : Char) : Bool :=
  !isBlank c && !isOperatorChar c

theorem isSolid_iff {c : Char} : isSolid c ↔ isBlank c = false ∧ isOperatorChar c = false := by
  simp [isSolid]

theorem isSolid_of_isBlank {c : Char} (h : isBlank c) : isSolid c = false := by
  simp [isSolid, h]

theorem isSolid_of_isOperatorChar {c : Char} (h : isOperatorChar c) : isSolid c = false := by
  simp [isSolid, h]

theorem isSolid_of_isDigit {c : Char} (h : c.isDigit) : isSolid c := by
  rw [isSolid_iff, Bool.eq_false_iff (b := isOperatorChar c)]
  refine ⟨isBlank_eq_false_of_isDigit h, ?_⟩
  intro hop
  rw [isDigit_of_isOperatorChar hop] at h
  cases h

theorem isSolid_of_isNameStart {c : Char} (h : isNameStart c) : isSolid c := by
  rw [isSolid_iff, Bool.eq_false_iff (b := isOperatorChar c)]
  refine ⟨isBlank_of_isNameStart h, ?_⟩
  intro hop
  rw [isNameStart_of_isOperatorChar hop] at h
  cases h

theorem isSolid_of_isNameChar {c : Char} (h : isNameChar c) : isSolid c := by
  rcases isNameChar_iff.mp h with h | h
  · exact isSolid_of_isDigit h
  · exact isSolid_of_isNameStart h

/--
A text that begins with solid characters and has no other.
-/
def Solid (cs : List Char) : Prop :=
  cs ≠ [] ∧ ∀ c ∈ cs, isSolid c

theorem solid_of_isInteger {cs : List Char} {n : Int} (h : IsInteger cs n) : Solid cs := by
  cases h with
  | plain h => exact ⟨h.1, fun c hc => isSolid_of_isDigit (h.2.1 c hc)⟩
  | negated h =>
    refine ⟨List.cons_ne_nil _ _, ?_⟩
    rw [List.forall_mem_cons]
    exact ⟨by decide, fun c hc => isSolid_of_isDigit (h.2.1 c hc)⟩

theorem solid_of_isName {cs : List Char} (h : IsName cs) : Solid cs := by
  cases cs with
  | nil => cases h
  | cons c cs =>
    obtain ⟨hc, hcs⟩ := isName_cons.mp h
    refine ⟨List.cons_ne_nil _ _, ?_⟩
    rw [List.forall_mem_cons]
    exact ⟨isSolid_of_isNameStart hc, fun d hd => isSolid_of_isNameChar (hcs d hd)⟩

theorem solid_of_operand {cs : List Char} {left : Operand} (h : left.Spells cs) : Solid cs := by
  cases h with
  | name h => exact solid_of_isName h
  | literal h => exact solid_of_isInteger h

section

variable {p : Char → Bool} {cs rest : List Char} {op : Comparison}

theorem Solid.stops (h : Solid cs) (hp : ∀ c, isSolid c → p c = false) : Stops p (cs ++ rest) := by
  obtain ⟨hne, hsolid⟩ := h
  cases cs with
  | nil => exact absurd rfl hne
  | cons c cs => exact stops_cons.mpr (hp c (hsolid c (by simp)))

theorem Solid.stops_isBlank (h : Solid cs) : Stops isBlank (cs ++ rest) :=
  h.stops (fun _ hc => (isSolid_iff.mp hc).1)

theorem Solid.stops_isOperatorChar (h : Solid cs) : Stops isOperatorChar (cs ++ rest) :=
  h.stops (fun _ hc => (isSolid_iff.mp hc).2)

theorem Solid.isOperatorChar (h : Solid cs) : ∀ c ∈ cs, isOperatorChar c = false :=
  fun c hc => (isSolid_iff.mp (h.2 c hc)).2

theorem isOperatorChar_of_blank (h : Blank cs) : ∀ c ∈ cs, isOperatorChar c = false := by
  intro c hc
  rw [Bool.eq_false_iff]
  intro hop
  exact absurd (h c hc) (by simp [isBlank_of_isOperatorChar hop])

theorem forall_isOperatorChar (h : op.Spells cs) : ∀ c ∈ cs, isOperatorChar c := by
  obtain ⟨c, more, rfl, hc, hmore⟩ := exists_cons_of_operator h
  exact List.forall_mem_cons.mpr ⟨hc, hmore⟩

theorem stops_symbol (h : op.Spells cs) (hp : ∀ c, isOperatorChar c → p c = false) : Stops p (cs ++ rest) := by
  obtain ⟨c, more, rfl, hc, -⟩ := exists_cons_of_operator h
  exact stops_cons.mpr (hp c hc)

end

/--
Where an integer ends is decided by the text, too, although it may begin with a minus.
-/
theorem integer_append_inj {cs cs' rest rest' : List Char} {n n' : Int} (h : IsInteger cs n)
    (hrest : Stops Char.isDigit rest) (h' : IsInteger cs' n') (hrest' : Stops Char.isDigit rest')
    (heq : cs ++ rest = cs' ++ rest') : cs = cs' ∧ rest = rest' := by
  obtain ⟨c, digits, rfl, -, hdigits⟩ := exists_cons_of_isInteger h
  obtain ⟨c', digits', rfl, -, hdigits'⟩ := exists_cons_of_isInteger h'
  rw [List.cons_append, List.cons_append, List.cons.injEq] at heq
  obtain ⟨rfl, heq⟩ := heq
  obtain ⟨rfl, rfl⟩ := append_inj_of_stops hdigits hrest hdigits' hrest' heq
  exact ⟨rfl, rfl⟩

theorem stops_isDigit_of_blank {cs : List Char} (h : Blank cs) : Stops Char.isDigit cs := by
  apply stops_of_forall
  intro c hc
  rw [Bool.eq_false_iff]
  intro hdigit
  exact absurd (h c hc) (by simp [isBlank_eq_false_of_isDigit hdigit])

namespace Layout

variable {l l' : Layout} {e e' : Expr} {rest : List Char}

namespace States

theorem stops_before (h : l.States e) : Stops isBlank (l.operand ++ rest) :=
  (solid_of_operand h.operand).stops_isBlank

theorem stops_operand (h : l.States e) : Stops isSolid (l.gap ++ (l.symbol ++ rest)) :=
  stops_append (fun c hc => isSolid_of_isBlank (h.gap c hc))
    (stops_symbol h.symbol (fun _ => isSolid_of_isOperatorChar))

theorem stops_gap (h : l.States e) : Stops isBlank (l.symbol ++ rest) :=
  stops_symbol h.symbol (fun _ => isBlank_of_isOperatorChar)

theorem stops_symbol (h : l.States e) : Stops isOperatorChar (l.space ++ (l.integer ++ rest)) :=
  stops_append (isOperatorChar_of_blank h.space) (solid_of_isInteger h.integer).stops_isOperatorChar

theorem stops_space (h : l.States e) : Stops isBlank (l.integer ++ rest) :=
  (solid_of_isInteger h.integer).stops_isBlank

end States

/--
A layout that fits the front of a text is part of every layout that fits the text, unless what follows goes on with
the integer.
-/
theorem eq_of_chars_append (h : l.States e) (h' : l'.States e') (hrest : Stops Char.isDigit (l.after ++ rest))
    (heq : l.chars ++ rest = l'.chars) : l' = { l with after := l.after ++ rest } := by
  simp only [Layout.chars, List.append_assoc] at heq
  obtain ⟨hbefore, heq⟩ := append_inj_of_stops h.before h.stops_before h'.before h'.stops_before heq
  obtain ⟨hoperand, heq⟩ := append_inj_of_stops (solid_of_operand h.operand).2 h.stops_operand
    (solid_of_operand h'.operand).2 h'.stops_operand heq
  obtain ⟨hgap, heq⟩ := append_inj_of_stops h.gap h.stops_gap h'.gap h'.stops_gap heq
  obtain ⟨hsymbol, heq⟩ := append_inj_of_stops (forall_isOperatorChar h.symbol) h.stops_symbol
    (forall_isOperatorChar h'.symbol) h'.stops_symbol heq
  obtain ⟨hspace, heq⟩ := append_inj_of_stops h.space h.stops_space h'.space h'.stops_space heq
  obtain ⟨hinteger, hafter⟩ :=
    integer_append_inj h.integer hrest h'.integer (stops_isDigit_of_blank h'.after) heq
  exact Layout.ext hbefore.symm hoperand.symm hgap.symm hsymbol.symm hspace.symm hinteger.symm hafter.symm

theorem eq_of_chars_eq (h : l.States e) (h' : l'.States e') (heq : l.chars = l'.chars) : l = l' := by
  have hstops := stops_isDigit_of_blank h.after
  rw [← List.append_nil l.after] at hstops
  rw [← List.append_nil l.chars] at heq
  have hl' := eq_of_chars_append h h' hstops heq
  rw [List.append_nil] at hl'
  exact hl'.symm

theorem isOperatorChar_front (h : l.States e) :
    ∀ c ∈ l.before ++ (l.operand ++ l.gap), isOperatorChar c = false := by
  rw [List.forall_mem_append, List.forall_mem_append]
  exact ⟨isOperatorChar_of_blank h.before, (solid_of_operand h.operand).isOperatorChar, isOperatorChar_of_blank h.gap⟩

theorem isOperatorChar_back (h : l.States e) :
    ∀ c ∈ l.space ++ (l.integer ++ l.after), isOperatorChar c = false := by
  rw [List.forall_mem_append, List.forall_mem_append]
  exact ⟨isOperatorChar_of_blank h.space, (solid_of_isInteger h.integer).isOperatorChar,
    isOperatorChar_of_blank h.after⟩

/--
All operator characters of a text that states a comparison stand in its symbol.
-/
theorem symbol_of_isRun {front run back : List Char} (h : l.States e) (hrun : IsRun isOperatorChar front run back)
    (heq : l.chars = front ++ (run ++ back)) : run = l.symbol := by
  apply hrun.eq_of_append (isOperatorChar_front h) (forall_isOperatorChar h.symbol) (isOperatorChar_back h)
  rw [← heq]
  simp only [Layout.chars, List.append_assoc]

end Layout

/--
A text is read just if it has a layout that states a comparison. It has only one, and what is read is stated there.
Everything else is refused: so is a text with a whole run of operator characters that is no operator, and one with
something behind the integer, whether or not it can be split into tokens.
-/
structure ReadsGrammar (text : String) : Prop where
  parse_iff : ∀ e, parse text = .ok e ↔ ∃ l : Layout, l.chars = text.toList ∧ l.States e
  unique : ∀ (l l' : Layout) (e e' : Expr), l.chars = text.toList → l.States e → l'.chars = text.toList →
    l'.States e' → l = l' ∧ e = e'
  refused : (∀ (l : Layout) (e : Expr), l.States e → l.chars ≠ text.toList) → ∃ reason, parse text = .error reason
  unlisted : ∀ front run back, IsRun isOperatorChar front run back → text.toList = front ++ (run ++ back) →
    (∀ op : Comparison, ¬op.Spells run) → ∃ reason, parse text = .error reason
  leftover : ∀ (l : Layout) (e : Expr) (rest : List Char), l.States e → text.toList = l.chars ++ rest →
    Stops Char.isDigit (l.after ++ rest) → ¬Blank rest → ∃ reason, parse text = .error reason
  trailing : ∀ (e : Expr) (t : Token) (ts : List Token),
    Lexes text.toList (operandToken e.left :: .operator e.op :: .integer e.right :: t :: ts) →
      parse text = .error (.trailing (t :: ts))

theorem parse_eq_ok_iff_states {text : String} {e : Expr} :
    parse text = .ok e ↔ ∃ l : Layout, l.chars = text.toList ∧ l.States e :=
  parse_eq_ok.trans reads_iff

theorem exists_error_of_refuted {text : String} (h : ∀ (l : Layout) (e : Expr), l.States e → l.chars ≠ text.toList) :
    ∃ reason, parse text = .error reason := by
  cases hparse : parse text with
  | error reason => exact ⟨reason, rfl⟩
  | ok e =>
    obtain ⟨l, hchars, hstates⟩ := parse_eq_ok_iff_states.mp hparse
    exact absurd hchars (h l e hstates)

theorem readsGrammar (text : String) : ReadsGrammar text where
  parse_iff _ := parse_eq_ok_iff_states
  unique := by
    intro l l' e e' hl h hl' h'
    have hread := parse_eq_ok_iff_states.mpr ⟨l, hl, h⟩
    rw [parse_eq_ok_iff_states.mpr ⟨l', hl', h'⟩] at hread
    exact ⟨Layout.eq_of_chars_eq h h' (hl.trans hl'.symm), (Except.ok.inj hread).symm⟩
  refused := exists_error_of_refuted
  unlisted := by
    intro front run back hrun htext hunlisted
    apply exists_error_of_refuted
    intro l e h hchars
    apply hunlisted e.op
    rw [Layout.symbol_of_isRun h hrun (hchars.trans htext)]
    exact h.symbol
  leftover := by
    intro l e rest h htext hrest hleft
    apply exists_error_of_refuted
    intro l' e' h' hchars
    obtain rfl := Layout.eq_of_chars_append h h' hrest (htext.symm.trans hchars.symm)
    exact hleft (fun c hc => h'.after c (List.mem_append_right _ hc))
  trailing := by
    intro e t ts h
    obtain ⟨left, op, right⟩ := e
    unfold parse
    rw [tokens_eq_ok.mpr h]
    cases left <;> rfl

end Expr

end Narrative
