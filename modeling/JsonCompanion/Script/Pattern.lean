import JsonCompanion.Script.Operation

/-!
# Patterns

* `bindingName` parses a name that is bound, `bindingPattern` the left side of a declaration.
* `spread` parses what stands behind three dots, in a list or in front of its end; the shape says
  whether it can be the rest of a pattern.
-/

namespace JsonCompanion.Script

/-- A name that may be bound. -/
def bindingName (ctx : Context) (kind : BindingKind) : Parser Text := do
  let word ← require? (← word?)
  require (ctx.admitsBinding kind word.vocabulary)
  advance ctx
  return word.name

/-- The last list or object binds names. -/
def requireBinding : Parser Unit := do
  let shape ← lastShape
  require (!shape.noPattern && !shape.noBinding)

/-- The left side of a declaration. -/
def bindingPattern (self : Rules) (ctx : Context) (kind : BindingKind) : Parser Pattern := do
  if (← peek).opensPattern then
    let operand ← self.collection ctx ⟨kind, true, false⟩
    requireBinding
    return operand.expr.pattern
  else return .name (← bindingName ctx kind)

/-- A part with its shape. -/
abbrev Shaped := Operand × Shape

/-- The part ends at a comma or at the closing mark. -/
def endsPart (closing : Text) : Parser Bool := do return (← sees ",") || (← sees closing)

/-- A word behind three dots with what follows it. -/
def spreadName (self : Rules) (ctx : Context) (closing : Text) (reading : Reading) :
    Parser Shaped := do
  let start ← place
  setAssignable true
  let first ← self.primary ctx { kind := reading.kind }
  let isMember := !(← endsPart closing)
  let operand ← suffixes self ctx start first
  let (operand, shape) ← if ← endsPart closing then pure (operand, ({} : Shape))
    else
      require ((← isAssignable) || !(← sees "="))
      pure (← assignmentRest self ctx start operand, { noPattern := true })
  let fit : Shape := if ← isAssignable then { noBinding := isMember } else { noPattern := true }
  return (operand, (shape.join fit).join { awaits := (← lastShape).awaits })

/-- A list or an object behind three dots with what follows it; in a rest of an object it fits no
pattern. -/
def spreadPattern (self : Rules) (ctx : Context) (closing : Text) (reading : Reading) :
    Parser Shaped := do
  let start ← place
  let first ← self.collection ctx { reading with takesValue := false }
  if (← sees "=") || (← endsPart closing) then
    let isRest := closing == ("\x7d" : Text) && !(← sees "=")
    let shape ← lastShape
    return (first, if isRest then { noPattern := true } else shape)
  require (!(← lastShape).onlyPattern)
  let operand ← suffixes self ctx start first
  let shape := Shape.ofName (← isAssignable)
  if (← peek).assigns then
    let isPlain ← sees "="
    let operand ← assignmentRest self ctx start operand
    return (operand, shape.join { noPattern := !isPlain })
  else
    let operand ← branches self ctx start (← operators self ctx.grouped start operand)
    return (operand, shape.join (.ofPlace (← isAssignable)))

/-- Any other expression behind three dots, which ends the part. -/
def spreadValue (self : Rules) (ctx : Context) (closing : Text) : Parser Operand := do
  let start ← place
  let operand ← leftHand self ctx {}
  let shape : Shape := { noBinding := true }
  let (operand, shape) ← if ← sees "=" then
      pure (← assignmentRest self ctx start operand, shape.join { noPattern := true })
    else
      let isLast := !(← sees ",")
      let operand ← if ← endsPart closing then pure operand
        else assignmentRest self ctx start operand
      pure (operand, (shape.join { noPattern := !isLast }).join (.ofPlace (← isAssignable)))
  setShape shape
  require (← endsPart closing)
  return operand

/-- The assignment behind a part, which fits no pattern. -/
def spreadRest (self : Rules) (ctx : Context) (closing : Text) (reading : Reading) (isAsync : Bool)
    (start : Nat) (part : Shaped) : Parser Operand := do
  let (operand, shape) := part
  if ← sees closing then
    setShape shape
    return operand
  let rest : Shape := if reading.kind != .parameter then {}
    else if isAsync then { noPattern := true } else { noBinding := true }
  let shape := shape.join rest
  if ← accept ctx.operand "=" then
    require (!shape.noPattern && operand.expr.assignsPlainly)
    let value ← self.assignment ctx
    setShape { noPattern := true }
    return ⟨.assign true operand.expr value.expr, ← spanFrom start⟩
  else
    setShape (shape.join { noPattern := true })
    return operand

/-- Three dots and what stands behind them. -/
def spread (self : Rules) (ctx : Context) (closing : Text) (reading : Reading) (isAsync : Bool) :
    Parser Operand := do
  expect ctx.operand "..."
  let start ← place
  if (← openWord?).isSome then
    spreadRest self ctx closing reading isAsync start (← spreadName self ctx closing reading)
  else if (← peek).opensPattern then
    spreadRest self ctx closing reading isAsync start (← spreadPattern self ctx closing reading)
  else spreadValue self ctx closing

end JsonCompanion.Script
