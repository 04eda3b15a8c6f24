import PatternLint.Evaluation.Binding
import PatternLint.Evaluation.Control
import PatternLint.Evaluation.Mapping
import PatternLint.Evaluation.StructuredRegexp

/-! The special forms by name. -/

namespace PatternLint.Evaluation

inductive SpecialForm where
  | quote
  | function
  | lambda
  | template
  | ifThenElse
  | cond
  | when (holds : Bool)
  | and
  | or
  | progn
  | valueOfNth (index : Nat)
  | letForm
  | letStarForm
  | set
  | push
  | pop
  | while
  | doList
  | doTimes
  | mapOver (c : Collection)
  | mapTogether
  | reduce
  | apply
  | funcall
  | rx
  | rxToString
  deriving Repr, DecidableEq

namespace SpecialForm

def all : List (String × SpecialForm) :=
  [("quote", .quote), ("function", .function), ("lambda", .lambda), ("\x60", .template),
    ("if", .ifThenElse), ("cond", .cond), ("when", .when true), ("unless", .when false),
    ("and", .and), ("or", .or), ("progn", .progn), ("prog1", .valueOfNth 0),
    ("prog2", .valueOfNth 1), ("eval-when-compile", .progn), ("eval-and-compile", .progn),
    ("ignore-errors", .progn), ("with-no-warnings", .progn), ("save-match-data", .progn),
    ("let", .letForm), ("let*", .letStarForm), ("setq", .set), ("push", .push), ("pop", .pop),
    ("while", .while), ("dolist", .doList), ("dotimes", .doTimes), ("mapcar", .mapOver .items),
    ("seq-map", .mapOver .items), ("mapcan", .mapOver .spliced), ("mapconcat", .mapOver .text),
    ("cl-mapcar", .mapTogether), ("cl-remove-if", .mapOver (.kept false)),
    ("seq-remove", .mapOver (.kept false)), ("cl-remove-if-not", .mapOver (.kept true)),
    ("seq-filter", .mapOver (.kept true)), ("cl-reduce", .reduce), ("apply", .apply),
    ("funcall", .funcall), ("rx", .rx), ("rx-to-string", .rxToString)]

def named? (name : String) : Option SpecialForm :=
  all.lookup name

def run (p : Policy) (ev : Evaluator) : SpecialForm → Handler
  | .quote => Evaluation.quote
  | .function => Evaluation.function
  | .lambda => Evaluation.lambda
  | .template => Evaluation.template ev
  | .ifThenElse => Evaluation.ifThenElse ev
  | .cond => Evaluation.cond ev
  | .when holds => Evaluation.when ev holds
  | .and => Evaluation.and ev
  | .or => Evaluation.or ev
  | .progn => ev.body
  | .valueOfNth index => Evaluation.valueOfNth ev index
  | .letForm => Evaluation.letForm p ev
  | .letStarForm => Evaluation.letStarForm p ev
  | .set => Evaluation.set p ev
  | .push => Evaluation.push p ev
  | .pop => Evaluation.pop p ev
  | .while => Evaluation.while ev
  | .doList => Evaluation.doList ev
  | .doTimes => Evaluation.doTimes ev
  | .mapOver c => Evaluation.mapOver p ev c
  | .mapTogether => Evaluation.mapTogether p ev
  | .reduce => Evaluation.reduce p ev
  | .apply => Evaluation.applyForm p ev
  | .funcall => Evaluation.funcall p ev
  | .rx => Evaluation.rx ev
  | .rxToString => Evaluation.rxToString ev

end SpecialForm

end PatternLint.Evaluation
