import DeferredAttributes.Proofs.Expression.Malformed
import DeferredAttributes.Schema.Basic

-- A condition that was fine for the number 1 is fine for every number: the one trial shows that
-- its text is an expression, and that it asks for nothing but the value.
namespace DeferredAttributes
open Expression

section
variable {text condition : String} {spec : Spec} {names : List String}

theorem Spec.parse_tried (read : Spec.parse text = .ok spec) (conditioned : spec.condition = some condition) :
    spec.type.isNumeric = true ∧ ∃ x, (evaluate (conditionSource 1) condition ()).1 = .ok x := by
  unfold Spec.parse at read
  split at read
  · split at read
    · cases read
      cases conditioned
    · cases read
  · split at read
    · cases read
    · dsimp only at read
      split at read
      · cases read
      · rename_i numeric
        split at read
        · rename_i x tried
          cases read
          cases conditioned
          exact ⟨by simpa using numeric,x,tried⟩
        · cases read

theorem conditionSource_steady (x : Float) (name : String) (s : Unit) :
    (conditionSource x name s).1 = if name = "value" then .ok x else .error (.unknown name) := rfl

theorem conditionSource_answers (own : ∀ name ∈ names, name = "value") (x : Float) :
    answers (conditionSource x) names () = (.ok (List.replicate names.length x),()) := by
  induction names with
  | nil => rfl
  | cons name rest ih =>
    obtain ⟨rfl,later⟩ := List.forall_mem_cons.mp own
    have asked : conditionSource x "value" () = (.ok x,()) := rfl
    exact answers_cons_ok.mpr ⟨x,(),_,asked,ih later,rfl⟩

theorem conditionSource_asked {x result : Float} (tried : (evaluate (conditionSource x) condition ()).1 = .ok result) :
    (∃ e, (Expression.parse condition).outcome = .ok e) ∧ ∀ name ∈ asked (tokens condition), name = "value" := by
  obtain ⟨parsed,fine⟩ := evaluate_ok (conditionSource_steady x) tried
  refine ⟨parsed,fun name member => ?_⟩
  obtain ⟨number,found⟩ := fine name member
  by_contra other
  rw [if_neg other] at found
  cases found

theorem Spec.parse_applies (read : Spec.parse text = .ok spec) (conditioned : spec.condition = some condition) :
    ∃ e : Expr, ∀ x, evaluate (conditionSource x) condition () =
      (.ok (e.value (List.replicate (asked (tokens condition)).length x)),()) := by
  obtain ⟨_,one,tried⟩ := Spec.parse_tried read conditioned
  obtain ⟨⟨e,parsed⟩,own⟩ := conditionSource_asked tried
  refine ⟨e,fun x => ?_⟩
  rw [evaluate_answers parsed,conditionSource_answers own]

theorem Value.number_numeric {value : Value} {type : ValueType} (typed : value.type? = some type)
    (numeric : type.isNumeric = true) : ∃ x, value.number? = some x := by
  cases value with
  | boolean | integer | decimal => exact ⟨_,rfl⟩
  | string => cases typed; cases numeric
  | object => cases typed

-- A condition has a result for every value of its type, and the validator tells from that result
-- alone whether the value is accepted.
theorem Schema.assignment_condition (read : Spec.parse text = .ok spec) (conditioned : spec.condition = some condition) :
    spec.type.isNumeric = true ∧
    ∀ (value : Value) (type : ValueType), value.type? = some type → type.isNumeric = true →
      ∃ x result, value.number? = some x ∧ evaluate (conditionSource x) condition () = (.ok result,()) ∧
        ∀ (schema : Schema) (kind : String) (key : Key) (raw : String), schema.spec kind key.name = spec →
          ∃ validate, (schema.assignment kind key raw).validator = some validate ∧
            validate value = if result != 0 then .ok ()
              else .error (value.text ++ " does not satisfy '" ++ condition ++ "'") := by
  obtain ⟨numeric,_⟩ := Spec.parse_tried read conditioned
  obtain ⟨e,applies⟩ := Spec.parse_applies read conditioned
  refine ⟨numeric,fun value type typed numeric => ?_⟩
  obtain ⟨x,number⟩ := Value.number_numeric typed numeric
  refine ⟨x,_,number,applies x,fun schema kind key raw declared => ⟨checkCondition condition,?_,?_⟩⟩
  · unfold Schema.assignment
    dsimp only
    rw [declared,conditioned]
    rfl
  · unfold checkCondition
    simp only [number,applies]

end

theorem assignment_condition_level :
    ∃ spec result validate, Spec.parse "integer where value > 0 && value < 10" = .ok spec ∧
      evaluate (conditionSource (0 / 0)) "value > 0 && value < 10" () = (.ok result,()) ∧
      (((Schema.declare [] "gauge" "level" spec).assignment "gauge" ⟨0,"level"⟩ "$fuel").validator = some validate) ∧
      validate (.decimal (0 / 0)) = if result != 0 then .ok ()
        else .error ((Value.decimal (0 / 0)).text ++ " does not satisfy 'value > 0 && value < 10'") := by
  have reads : (match Spec.parse "integer where value > 0 && value < 10" with
    | .ok spec => decide (spec = ⟨.integer,false,some "value > 0 && value < 10"⟩) | .error _ => false) = true := by
    decide +kernel
  cases read : Spec.parse "integer where value > 0 && value < 10" with
  | error error => rw [read] at reads; cases reads
  | ok spec =>
    rw [read] at reads
    cases of_decide_eq_true reads
    obtain ⟨_,applies⟩ := Schema.assignment_condition read rfl
    obtain ⟨x,result,number,evaluated,validates⟩ := applies (.decimal (0 / 0)) .decimal rfl rfl
    cases number
    obtain ⟨validate,built,outcome⟩ := validates (Schema.declare [] "gauge" "level" _) "gauge" ⟨0,"level"⟩ "$fuel" rfl
    exact ⟨_,result,validate,rfl,evaluated,built,outcome⟩

end DeferredAttributes
