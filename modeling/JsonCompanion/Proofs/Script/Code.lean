import JsonCompanion.Proofs.Script.Lexing

/-!
# Code of conversions

`Code` is the part of the language that conversions are written in.

* `Code.text` is how it is written, `Code.tokens` what tokens that are, and `Code.expr` what it means.
* `Code.IsSpelt` says that its words are words and stand where they may.
* `Code.isSound` says that no function has a copy of an object as its body: the brace of the copy
  would open a block of statements.
* `Code.spells`: the text consists of the tokens.
-/

namespace JsonCompanion.Script

/-- Code of conversions: chains of members and calls that begin with a name or a construction,
copies of objects, guards against null, and as arguments also texts and functions of an element or
of an entry. -/
inductive Code
  | reference (name : Text)
  | this
  | construction (callee : Text) (arguments : List Code)
  | member (object : Code) (label : Text)
  | index (object key : Code)
  | call (callee : Code) (arguments : List Code)
  | copy (source : Code)
  | guarded (subject value : Code)
  | lambda (body : Code)
  | entryLambda (body : Code)
  | quoted (value : Text)

/-- The word is a name wherever an expression may be one. -/
def Vocabulary.isReference : Vocabulary → Bool
  | .plain | .restricted | .async | .contextual | .particle => true
  | _ => false

namespace Code

/-! ### Texts -/

mutual

/-- How code is written. -/
def text : Code → Text
  | .reference name => name
  | .this => "this"
  | .construction callee arguments => "new " ++ callee ++ "(" ++ listText arguments ++ ")"
  | .member object label => object.text ++ "." ++ label
  | .index object key => object.text ++ "[" ++ key.text ++ "]"
  | .call callee arguments => callee.text ++ "(" ++ listText arguments ++ ")"
  | .copy source => "\x7b ..." ++ source.text ++ " \x7d"
  | .guarded subject value => subject.text ++ " == null ? null : " ++ value.text
  | .lambda body => "(e) => " ++ body.text
  | .entryLambda body => "([k, e]) => [k, " ++ body.text ++ "]"
  | .quoted value => value.quote

/-- How arguments are written. -/
def listText : List Code → Text
  | [] => []
  | code :: codes => code.text ++ moreText codes

/-- How arguments behind another one are written. -/
def moreText : List Code → Text
  | [] => []
  | code :: codes => ", " ++ code.text ++ moreText codes

end

/-! ### Tokens -/

mutual

/-- The tokens of code. -/
def tokens : Code → List Token
  | .reference name => [.ofName name]
  | .this => [.ofName "this"]
  | .construction callee arguments =>
    .ofName "new" :: .ofName callee :: .mark "(" :: (listTokens arguments ++ [.mark ")"])
  | .member object label => object.tokens ++ [.mark ".", .ofName label]
  | .index object key => object.tokens ++ .mark "[" :: (key.tokens ++ [.mark "]"])
  | .call callee arguments => callee.tokens ++ .mark "(" :: (listTokens arguments ++ [.mark ")"])
  | .copy source => .mark "\x7b" :: .mark "..." :: (source.tokens ++ [.mark "\x7d"])
  | .guarded subject value =>
    subject.tokens ++ .mark "==" :: .ofName "null" :: .mark "?" :: .ofName "null" :: .mark ":" ::
      value.tokens
  | .lambda body => .mark "(" :: .ofName "e" :: .mark ")" :: .mark "=>" :: body.tokens
  | .entryLambda body =>
    .mark "(" :: .mark "[" :: .ofName "k" :: .mark "," :: .ofName "e" :: .mark "]" :: .mark ")" ::
      .mark "=>" :: .mark "[" :: .ofName "k" :: .mark "," :: (body.tokens ++ [.mark "]"])
  | .quoted value => [.string value false]

/-- The tokens of arguments. -/
def listTokens : List Code → List Token
  | [] => []
  | code :: codes => code.tokens ++ moreTokens codes

/-- The tokens of arguments behind another one. -/
def moreTokens : List Code → List Token
  | [] => []
  | code :: codes => .mark "," :: (code.tokens ++ moreTokens codes)

end

/-! ### Meaning -/

mutual

/-- What code means. -/
def expr : Code → Expr
  | .reference name => .name name
  | .this => .this
  | .construction callee arguments => .construction (.name callee) (elements arguments)
  | .member object label => .member object.expr (.label label)
  | .index object key => .member object.expr (.computed key.expr)
  | .call callee arguments => .call callee.expr (elements arguments)
  | .copy source => .object [.spread source.expr]
  | .guarded subject value => .conditional (.binary "==" subject.expr .null) .null value.expr
  | .lambda body => .arrow [.item (.name "e")] (some body.expr)
  | .entryLambda body =>
    .arrow [.item (.array [.item (.name "k"), .item (.name "e")])]
      (some (.array [.item (.name "k"), .item body.expr]))
  | .quoted value => .string value

/-- What arguments mean. -/
def elements : List Code → List Element
  | [] => []
  | code :: codes => .item code.expr :: elements codes

end

/-! ### Conditions -/

/-- A chain of members and calls. -/
def isChain : Code → Bool
  | .reference _ | .this | .construction .. | .member .. | .index .. | .call .. => true
  | _ => false

/-- A function or a text. -/
def isArgumentOnly : Code → Bool
  | .lambda _ | .entryLambda _ | .quoted _ => true
  | _ => false

/-- A copy of an object, which begins with a brace. -/
def isCopy : Code → Bool
  | .copy _ => true
  | _ => false

/-- The name of a function, which stands in front of a parenthesis. -/
def isAsync : Code → Bool
  | .reference name => Vocabulary.ofWord name = .async
  | _ => false

mutual

/-- Names are names, and members, calls, copies and guards are those of chains. -/
def IsSpelt : Code → Prop
  | .reference name => name.isIdentifier ∧ (Vocabulary.ofWord name).isReference
  | .this => True
  | .construction callee arguments => callee.isIdentifier ∧ Vocabulary.ofWord callee = .plain ∧
      AreSpelt arguments
  | .member object label => object.isChain ∧ object.IsSpelt ∧ label.isIdentifier
  | .index object key => object.isChain ∧ object.IsSpelt ∧ key.IsSpelt
  | .call callee arguments => callee.isChain ∧ callee.isAsync = false ∧ callee.IsSpelt ∧
      AreSpelt arguments
  | .copy source => source.isChain ∧ source.IsSpelt
  | .guarded subject value => subject.isChain ∧ subject.IsSpelt ∧ value.IsSpelt
  | .lambda body => body.IsSpelt
  | .entryLambda body => body.isArgumentOnly = false ∧ body.IsSpelt
  | .quoted _ => True

/-- All of some arguments are spelt. -/
def AreSpelt : List Code → Prop
  | [] => True
  | code :: codes => code.IsSpelt ∧ AreSpelt codes

end

mutual

/-- No function has a copy of an object as its body. -/
def isSound : Code → Bool
  | .reference _ | .this | .quoted _ => true
  | .construction _ arguments => areSound arguments
  | .member object _ => object.isSound
  | .index object key => object.isSound && key.isSound
  | .call callee arguments => callee.isSound && areSound arguments
  | .copy source => source.isSound
  | .guarded subject value => subject.isSound && value.isSound
  | .lambda body => !body.isCopy && body.isSound
  | .entryLambda body => body.isSound

/-- No function among some arguments has a copy of an object as its body. -/
def areSound : List Code → Bool
  | [] => true
  | code :: codes => code.isSound && areSound codes

end

/-! ### Spelling -/

private theorem new_text : Text.ofString "new " = Text.ofString "new" ++ [0x20] := rfl

private theorem copy_text :
    Text.ofString "\x7b ..." = Text.ofString "\x7b" ++ 0x20 :: Text.ofString "..." ∧
    Text.ofString " \x7d" = 0x20 :: Text.ofString "\x7d" :=
  ⟨rfl, rfl⟩

private theorem guard_text : Text.ofString " == null ? null : " =
    0x20 :: (Text.ofString "==" ++ 0x20 :: (Text.ofString "null" ++ 0x20 :: (Text.ofString "?" ++ 0x20 ::
      (Text.ofString "null" ++ 0x20 :: (Text.ofString ":" ++ [0x20]))))) := rfl

private theorem lambda_text : Text.ofString "(e) => " = 
    Text.ofString "(" ++
      (Text.ofString "e" ++ (Text.ofString ")" ++ 0x20 :: (Text.ofString "=>" ++ [0x20]))) := rfl

private theorem entry_text : Text.ofString "([k, e]) => [k, " =
    Text.ofString "(" ++ (Text.ofString "[" ++ (Text.ofString "k" ++ (Text.ofString "," ++ 0x20 ::
      (Text.ofString "e" ++
        (Text.ofString "]" ++ (Text.ofString ")" ++ 0x20 :: (Text.ofString "=>" ++ 0x20 ::
        (Text.ofString "[" ++ (Text.ofString "k" ++ (Text.ofString "," ++ [0x20])))))))))) := rfl

private theorem comma_text : Text.ofString ", " = Text.ofString "," ++ [0x20] := rfl

private theorem endsName_more {rest : Text} (hends : rest.endsName) :
    ∀ codes, (moreText codes ++ rest).endsName
  | [] => hends
  | _ :: _ => rfl

mutual

/-- Code in front of other tokens. -/
theorem spells :
    ∀ (code : Code), code.IsSpelt → ∀ {rest : Text} {following : List Token}, Spells rest following →
    rest.endsName → Spells (code.text ++ rest) (code.tokens ++ following)
  | .reference name, hspelt, rest, following, hrest, hends => hrest.word name hspelt.1 hends
  | .this, _, rest, following, hrest, hends => hrest.word "this" rfl hends
  | .construction callee arguments, hspelt, rest, following, hrest, hends => by
    have hlist := spells_list arguments hspelt.2.2 (hrest.mark ")" (by decide)) rfl
    have hcallee := (hlist.mark "(" (by decide)).word callee hspelt.1 rfl
    have hnew := hcallee.space.word "new" rfl rfl
    simpa only [text, tokens, new_text, List.append_assoc, List.cons_append, List.nil_append] using hnew
  | .member object label, hspelt, rest, following, hrest, hends => by
    have hobject := spells object hspelt.2.1 (hrest.label label hspelt.2.2 hends) rfl
    simpa only [text, tokens, List.append_assoc, List.cons_append, List.nil_append] using hobject
  | .index object key, hspelt, rest, following, hrest, hends => by
    have hkey := spells key hspelt.2.2 (hrest.mark "]" (by decide)) rfl
    have hobject := spells object hspelt.2.1 (hkey.mark "[" (by decide)) rfl
    simpa only [text, tokens, List.append_assoc, List.cons_append, List.nil_append] using hobject
  | .call callee arguments, hspelt, rest, following, hrest, hends => by
    have hlist := spells_list arguments hspelt.2.2.2 (hrest.mark ")" (by decide)) rfl
    have hcallee := spells callee hspelt.2.2.1 (hlist.mark "(" (by decide)) rfl
    simpa only [text, tokens, List.append_assoc, List.cons_append, List.nil_append] using hcallee
  | .copy source, hspelt, rest, following, hrest, hends => by
    have hsource := spells source hspelt.2 (hrest.mark "\x7d" (by decide)).space rfl
    have hopen := (hsource.mark "..." (by decide)).space.mark "\x7b" (by decide)
    simpa only [text, tokens, copy_text, List.append_assoc, List.cons_append,
      List.nil_append] using hopen
  | .guarded subject value, hspelt, rest, following, hrest, hends => by
    have hvalue := spells value hspelt.2.2 hrest hends
    have hother := (hvalue.space.mark ":" (by decide)).space.word "null" rfl rfl
    have hnull := hother.space.question.space.word "null" rfl rfl
    have hsubject := spells subject hspelt.2.1 hnull.space.equal.space rfl
    simpa only [text, tokens, guard_text, List.append_assoc, List.cons_append,
      List.nil_append] using hsubject
  | .lambda body, hspelt, rest, following, hrest, hends => by
    have harrow := (spells body hspelt hrest hends).space.mark "=>" (by decide)
    have hname := (harrow.space.mark ")" (by decide)).word "e" rfl rfl
    have hopen := hname.mark "(" (by decide)
    simpa only [text, tokens, lambda_text, List.append_assoc, List.cons_append,
      List.nil_append] using hopen
  | .entryLambda body, hspelt, rest, following, hrest, hends => by
    have hbody := spells body hspelt.2 (hrest.mark "]" (by decide)) rfl
    have hlist := ((hbody.space.mark "," (by decide)).word "k" rfl rfl).mark "[" (by decide)
    have harrow := hlist.space.mark "=>" (by decide)
    have hvalue := ((harrow.space.mark ")" (by decide)).mark "]" (by decide)).word "e" rfl rfl
    have hkey := (hvalue.space.mark "," (by decide)).word "k" rfl rfl
    have hopen := (hkey.mark "[" (by decide)).mark "(" (by decide)
    simpa only [text, tokens, entry_text, List.append_assoc, List.cons_append,
      List.nil_append] using hopen
  | .quoted value, _, rest, following, hrest, _ => hrest.quote value

theorem spells_list : ∀ (codes : List Code), AreSpelt codes →
    ∀ {rest : Text} {following : List Token}, Spells rest following →
    rest.endsName → Spells (listText codes ++ rest) (listTokens codes ++ following)
  | [], _, _, _, hrest, _ => hrest
  | code :: codes, hspelt, rest, following, hrest, hends => by
    have hmore := spells_more codes hspelt.2 hrest hends
    have hcode := spells code hspelt.1 hmore (endsName_more hends codes)
    simpa only [listText, listTokens, List.append_assoc] using hcode

theorem spells_more : ∀ (codes : List Code), AreSpelt codes →
    ∀ {rest : Text} {following : List Token}, Spells rest following →
    rest.endsName → Spells (moreText codes ++ rest) (moreTokens codes ++ following)
  | [], _, _, _, hrest, _ => hrest
  | code :: codes, hspelt, rest, following, hrest, hends => by
    have hmore := spells_more codes hspelt.2 hrest hends
    have hcode := spells code hspelt.1 hmore (endsName_more hends codes)
    have hcomma := hcode.space.mark "," (by decide)
    simpa only [moreText, moreTokens, comma_text, List.append_assoc, List.cons_append,
      List.nil_append] using hcomma

end

/-! ### Length -/

private theorem length_pos {name : Text} (h : name.isIdentifier) : 0 < name.length := by
  match name with
  | [] => exact absurd h (by decide)
  | _ :: _ => exact Nat.succ_pos _

private theorem length_quote (value : Text) : 0 < value.quote.length := by
  match value with
  | [] => decide
  | _ :: _ => exact Nat.succ_pos _

private theorem length_words : (Text.ofString "this").length = 4 ∧ (Text.ofString "new ").length = 4 ∧
    (Text.ofString "(").length = 1 ∧ (Text.ofString ")").length = 1 ∧ (Text.ofString ".").length = 1 ∧
    (Text.ofString "[").length = 1 ∧ (Text.ofString "]").length = 1 ∧ (Text.ofString ", ").length = 2 :=
  ⟨rfl, rfl, rfl, rfl, rfl, rfl, rfl, rfl⟩

private theorem length_templates :
    (Text.ofString "\x7b ...").length = 5 ∧ (Text.ofString " \x7d").length = 2 ∧
    (Text.ofString " == null ? null : ").length = 18 ∧ (Text.ofString "(e) => ").length = 7 ∧
    (Text.ofString "([k, e]) => [k, ").length = 16 := ⟨rfl, rfl, rfl, rfl, rfl⟩

mutual

/-- No token is empty. -/
theorem length_tokens_le : ∀ code : Code, code.IsSpelt → code.tokens.length ≤ code.text.length
  | .reference name, hspelt => length_pos hspelt.1
  | .this, _ => by simp only [text, tokens, length_words, List.length_cons, List.length_nil]; omega
  | .construction callee arguments, hspelt => by
    have hcallee := length_pos hspelt.1
    have hlist := length_listTokens_le arguments hspelt.2.2
    simp only [text, tokens, length_words, List.length_append, List.length_cons, List.length_nil]
    omega
  | .member object label, hspelt => by
    have hobject := length_tokens_le object hspelt.2.1
    have hlabel := length_pos hspelt.2.2
    simp only [text, tokens, length_words, List.length_append, List.length_cons, List.length_nil]
    omega
  | .index object key, hspelt => by
    have hobject := length_tokens_le object hspelt.2.1
    have hkey := length_tokens_le key hspelt.2.2
    simp only [text, tokens, length_words, List.length_append, List.length_cons, List.length_nil]
    omega
  | .call callee arguments, hspelt => by
    have hcallee := length_tokens_le callee hspelt.2.2.1
    have hlist := length_listTokens_le arguments hspelt.2.2.2
    simp only [text, tokens, length_words, List.length_append, List.length_cons, List.length_nil]
    omega
  | .copy source, hspelt => by
    have hsource := length_tokens_le source hspelt.2
    simp only [text, tokens, length_templates, List.length_append, List.length_cons, List.length_nil]
    omega
  | .guarded subject value, hspelt => by
    have hsubject := length_tokens_le subject hspelt.2.1
    have hvalue := length_tokens_le value hspelt.2.2
    simp only [text, tokens, length_templates, List.length_append, List.length_cons]
    omega
  | .lambda body, hspelt => by
    have hbody := length_tokens_le body hspelt
    simp only [text, tokens, length_templates, List.length_append, List.length_cons]
    omega
  | .entryLambda body, hspelt => by
    have hbody := length_tokens_le body hspelt.2
    simp only [text, tokens, length_words, length_templates, List.length_append, List.length_cons,
      List.length_nil]
    omega
  | .quoted value, _ => length_quote value

theorem length_listTokens_le :
    ∀ codes : List Code, AreSpelt codes → (listTokens codes).length ≤ (listText codes).length
  | [], _ => Nat.le_refl _
  | code :: codes, hspelt => by
    have hcode := length_tokens_le code hspelt.1
    have hmore := length_moreTokens_le codes hspelt.2
    simp only [listText, listTokens, List.length_append]
    omega

theorem length_moreTokens_le :
    ∀ codes : List Code, AreSpelt codes → (moreTokens codes).length ≤ (moreText codes).length
  | [], _ => Nat.le_refl _
  | code :: codes, hspelt => by
    have hcode := length_tokens_le code hspelt.1
    have hmore := length_moreTokens_le codes hspelt.2
    simp only [moreText, moreTokens, length_words, List.length_append, List.length_cons]
    omega

end

end Code

end JsonCompanion.Script
