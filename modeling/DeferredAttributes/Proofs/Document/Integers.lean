import DeferredAttributes.CommandLine.Program
import DeferredAttributes.Proofs.Block.Accounting
import DeferredAttributes.Proofs.Block.Coverage
import DeferredAttributes.Proofs.Document.Splitting
import DeferredAttributes.Proofs.Expression.Numeral

-- An attribute that is declared as an integer and written as a whole number. Its text is an expression
-- like any other, so the number goes through double precision on its way to the tree.
namespace DeferredAttributes
open Hcl Resolution Expression Decimal

theorem Spec.parse_integer : Spec.parse "integer" = .ok ⟨.integer,false,none⟩ := by rfl

-- What the digits of a whole number come to. From 2^63 - 512 on the nearest number is 2^63.
def readWhole (n : Nat) : Except ConversionError Value :=
  if n < 2 ^ 63 - 512 then .ok (.integer (rounded n)) else .error (.outOfRange (ofDigits n 0))

def wholeError? (n : Nat) : Option ResolveError :=
  match readWhole n with
  | .ok _ => none
  | .error error => some (.conversion error)

def wholeOutcome (n : Nat) : Outcome := if (wholeError? n).isNone then .accepted else .failed

section
variable {n : Nat}

theorem readWhole_integer {value : Value} (read : readWhole n = .ok value) : value.type? = some .integer := by
  unfold readWhole at read
  split at read <;> cases read
  rfl

theorem Resolver.check_whole : (Resolver.expression .integer).check (toString n) = .ok () := by
  unfold check
  rw [check_parse.mpr ⟨_,by rw [numeral_parse]⟩]

variable (range : n < 2 ^ 63)
include range

theorem ValueType.fromNumber_whole : ValueType.integer.fromNumber (ofDigits n 0) = readWhole n := by
  have limit := rounded_limit range
  unfold fromNumber readWhole
  rw [nearestInt_ofDigits range]
  dsimp only
  congr 1
  unfold fits
  simp
  omega

theorem Resolver.resolve_whole (scope : Scope) :
    (Resolver.expression .integer).resolve (toString n) scope false = (converted (readWhole n),false) := by
  unfold resolve
  dsimp only
  rw [numeral_evaluate]
  dsimp only
  rw [ValueType.fromNumber_whole range]

theorem readWhole_exact : (readWhole n).toOption = some (.integer n) ↔ Representable n := by
  have limit := rounded_limit range
  rw [← rounded_eq_self]
  unfold readWhole
  split
  · simp only [Except.toOption,Option.some.injEq,Value.integer.injEq,Int.natCast_inj]
  · simp [Except.toOption]
    omega

end

namespace Block
variable {schema : Schema} {environment : Environment} {root : Block} {i n : Nat} {b : Block} {key : String}
  (placed : root.preorder[i]? = some b) (written : b.attributes.lookup key = some (toString n))
  (declared : schema.spec b.kind key = ⟨.integer,false,none⟩) (range : n < 2 ^ 63)
include placed written declared range

section
variable {last : Resolution}
  (run : Runs environment (.start (Declared.ofBlock schema root).tree) (Declared.ofBlock schema root).assignments
    (root.attempts schema environment) last)
include run

theorem attempt_whole : ∃ e ∈ root.attempts schema environment, e.target = ⟨i,key⟩ ∧
    e.outcome = wholeOutcome n ∧ e.error? = wholeError? n ∧
    ∃ entry, last.tree.slot? ⟨i,key⟩ = some entry ∧ entry.value = (readWhole n).toOption := by
  let a : Assignment :=
    { target := ⟨i,key⟩, raw := toString n, resolver := .expression .integer, validator := none, volatile := false }
  have assignment : schema.assignment b.kind ⟨i,key⟩ (toString n) = a := by
    unfold Schema.assignment
    rw [declared]
    rfl
  have member : a ∈ (Declared.ofBlock schema root).assignments :=
    Declared.mem_ofBlock.mpr ⟨b,placed,written,assignment.symm⟩
  obtain ⟨entry,found,type⟩ := Option.map_eq_some_iff.mp (attempt_typed run member)
  obtain ⟨⟨_,ending⟩,attempted,rfl⟩ := List.mem_map.mp (run.once.mem_iff.mpr member)
  obtain ⟨later,_,upheld⟩ := (run.truthful (root.load_open schema environment)).mem attempted
  change Upheld environment last.tree _ later a ending at upheld
  refine ⟨_,attempted,rfl,?_⟩
  have resolved := Resolver.resolve_whole range ⟨last.tree,i,environment⟩
  unfold wholeOutcome wholeError?
  cases read : readWhole n with
  | ok value =>
    rw [read] at resolved
    have accepted : last.tree.refusal? a.target value = none :=
      (Tree.refusal_typed found).mpr ((readWhole_integer read).trans (congrArg some type.symm))
    obtain ⟨deterministic,answered⟩ := Assignment.answer_accepted (congrArg Prod.fst resolved) accepted
    obtain ⟨rfl,stored⟩ := upheld.ends_executed Resolver.check_whole answered
    exact ⟨rfl,rfl,entry,found,(Tree.slot_solved found stored).1⟩
  | error error =>
    rw [read] at resolved
    have answered : a.answer environment last.tree = .error (.conversion error) := by
      unfold Assignment.answer
      rw [resolved]
      rfl
    obtain ⟨rfl,blank⟩ := upheld.ends_failed Resolver.check_whole answered fun _ impossible => by cases impossible
    exact ⟨rfl,rfl,entry,found,Tree.slot_blank found blank⟩

theorem issues_whole (alone : ∀ a ∈ (Declared.ofBlock schema root).assignments, a.target = ⟨i,key⟩) :
    last.issues = (wholeError? n).toList.map (.failed (last.tree.displayKey ⟨i,key⟩) (last.tree.node i).origin) := by
  have ready := root.load_open schema environment
  obtain ⟨e,attempted,target,outcome,error,_⟩ := attempt_whole placed written declared range run
  have only : ∀ other ∈ root.attempts schema environment, other = e := by
    intro other present
    have assigned := run.once.mem_iff.mp (List.mem_map.mpr ⟨other,present,rfl⟩)
    exact ready.only run present attempted ((alone _ assigned).trans target.symm)
  have single : root.attempts schema environment = [e] := by
    have same := List.eq_replicate_of_mem only
    have distinct : (root.attempts schema environment).Nodup := (ready.nodup run).of_map _
    rw [same,List.nodup_replicate] at distinct
    have some := List.length_pos_of_mem attempted
    rw [same,show (root.attempts schema environment).length = 1 by omega,List.replicate_one]
  have ended : e.ending ≠ .abandoned := by
    intro given
    have other : wholeOutcome n ≠ .circular := by
      unfold wholeOutcome
      split <;> decide
    unfold Attempt.outcome at outcome
    rw [given] at outcome
    exact other outcome.symm
  have free : circleIssue environment last.tree [e] = [] := circleIssue_cons ended []
  have origin : (last.tree.node i).origin = (last.tree.node e.target.node).origin := by rw [target]
  rw [run.issues ready,single,free,List.append_nil,← error,← target,origin]
  change [e].filterMap (Attempt.issue? last.tree) = _
  rw [List.filterMap_cons,Attempt.issue_map]
  cases e.error? <;> rfl

end

theorem load_whole : ∃ entry, (root.load schema environment).2.tree.slot? ⟨i,key⟩ = some entry ∧
    entry.value = (readWhole n).toOption := by
  obtain ⟨last,run,_,tree,_⟩ := root.load_runs schema environment
  obtain ⟨_,_,_,_,_,stored⟩ := attempt_whole placed written declared range run
  rw [tree]
  exact stored

theorem load_whole_holds (names : ∀ b ∈ root.preorder.tail, '/' ∉ b.name.toList)
    (keys : ∀ b ∈ root.preorder, ∀ entry ∈ b.attributes, '/' ∉ entry.1.toList) {entry : Entry}
    (found : (root.load schema environment).2.tree.slot? ⟨i,key⟩ = some entry) :
    let report := (root.load schema environment).1
    let path := (root.load schema environment).2.tree.displayKey ⟨i,key⟩
    (wholeOutcome n).Holds report path entry ∧ report.filterMap (Issue.errorAt? path) = (wholeError? n).toList := by
  obtain ⟨last,run,issues,tree,_⟩ := root.load_runs schema environment
  obtain ⟨e,attempted,target,outcome,error,_⟩ := attempt_whole placed written declared range run
  dsimp only
  rw [tree] at found ⊢
  rw [issues,List.filterMap_append,silent_errors (Declared.ofBlock_silent schema root),List.nil_append,← target,
    ← outcome,← error]
  exact ⟨attempt_outcome run names keys attempted (target ▸ found),
    run.errors_at (root.load_open schema environment) (attempts_apart run names keys) attempted⟩

theorem load_whole_single (once : ∀ b ∈ root.preorder, ¬b.Repeats)
    (only : ∀ j b, root.preorder[j]? = some b → ∀ entry ∈ b.attributes, j = i ∧ entry.1 = key) :
    let t := (root.load schema environment).2.tree
    (root.load schema environment).1 =
      (wholeError? n).toList.map (.failed (t.displayKey ⟨i,key⟩) (t.node i).origin) := by
  obtain ⟨last,run,issues,tree,_⟩ := root.load_runs schema environment
  have alone : ∀ a ∈ (Declared.ofBlock schema root).assignments, a.target = ⟨i,key⟩ := by
    intro a member
    obtain ⟨other,found,written,_⟩ := Declared.mem_ofBlock.mp member
    obtain ⟨before,after,split,_⟩ := List.lookup_eq_some_iff.mp written
    obtain ⟨node,name⟩ := only _ other found (a.target.name,a.raw) (by rw [split]; simp)
    exact congr (congrArg Key.mk node) name
  rw [issues,Declared.ofBlock_tidy schema once,List.nil_append,tree]
  exact issues_whole placed written declared range run alone

end Block

namespace Configuration

theorem ofDocuments_silent (documents : List Document) :
    ∀ issue ∈ (ofDocuments documents).issues, issue.isFailed = false ∧ issue.circle? = none := by
  intro issue member
  have reported := (Splits.empty.documents documents).issues.mem_iff.mp member
  simp only [List.mem_append,misplaced,misplacedIn,mislabelled,contained,Written.contained,unreadable,List.mem_flatMap,
    List.mem_map,List.mem_filterMap] at reported
  rcases reported with ((⟨_,_,_,_,rfl⟩ | ⟨_,_,rfl⟩) | ⟨_,_,_,_,rfl⟩) | ⟨d,_,faulty⟩
  · exact ⟨rfl,rfl⟩
  · exact ⟨rfl,rfl⟩
  · exact ⟨rfl,rfl⟩
  · unfold Declaration.fault? at faulty
    split at faulty <;> cases faulty
    exact ⟨rfl,rfl⟩

-- No name of a block or an attribute has a slash, so that no two attributes have one path.
def Plain (c : Configuration) : Prop :=
  (∀ b ∈ c.root.preorder.tail, '/' ∉ b.name.toList) ∧ ∀ b ∈ c.root.preorder, ∀ entry ∈ b.attributes, '/' ∉ entry.1.toList

def Single (c : Configuration) (i : Nat) (key : String) : Prop :=
  c.issues = [] ∧ (∀ b ∈ c.root.preorder, ¬b.Repeats) ∧
    ∀ j b, c.root.preorder[j]? = some b → ∀ entry ∈ b.attributes, j = i ∧ entry.1 = key

end Configuration

namespace CommandLine

-- Below 2^63 - 512 the nearest number with 53 binary digits is stored, of two the one with an
-- even last digit. From there on the number is out of range.
theorem loadDocuments_integer (environment : Environment) {documents : List Document} {i n : Nat} {b : Block}
    {key : String} (placed : (Configuration.ofDocuments documents).root.preorder[i]? = some b)
    (written : b.attributes.lookup key = some (Term.number (.whole n)).raw)
    (declared : Spec.parse "integer" = .ok ((Configuration.ofDocuments documents).schema.spec b.kind key))
    (range : n < 2 ^ 63) :
    let c := Configuration.ofDocuments documents
    let report := (loadDocuments environment documents).1
    let t := (loadDocuments environment documents).2.tree
    let path := t.displayKey ⟨i,key⟩
    ∃ entry, t.slot? ⟨i,key⟩ = some entry ∧ (entry.value = some (.integer n) ↔ Representable n) ∧
      if n < 2 ^ 63 - 512 then
        entry.value = some (.integer (rounded n)) ∧ (c.Plain → Outcome.accepted.Holds report path entry) ∧
          (c.Single i key → report = [])
      else
        entry.value = none ∧
          (c.Plain → Outcome.failed.Holds report path entry ∧
            report.filterMap (Issue.errorAt? path) = [.conversion (.outOfRange (ofDigits n 0))]) ∧
          (c.Single i key → report = [.failed path (t.node i).origin (.conversion (.outOfRange (ofDigits n 0)))]) := by
  intro c report t path
  have spec : c.schema.spec b.kind key = ⟨.integer,false,none⟩ := by
    rw [Spec.parse_integer] at declared
    exact (Except.ok.inj declared).symm
  obtain ⟨entry,found,value⟩ : ∃ entry, t.slot? ⟨i,key⟩ = some entry ∧ entry.value = (readWhole n).toOption :=
    Block.load_whole placed written spec range
  have silent := Configuration.ofDocuments_silent documents
  have plain : c.Plain → (wholeOutcome n).Holds report path entry ∧
      report.filterMap (Issue.errorAt? path) = (wholeError? n).toList := by
    rintro ⟨names,keys⟩
    obtain ⟨holds,errors⟩ := Block.load_whole_holds placed written spec range names keys found
    refine ⟨Outcome.behind silent holds,?_⟩
    change ((c.root.load c.schema environment).1 ++ c.issues).filterMap _ = _
    rw [List.filterMap_append,silent_errors silent,List.append_nil]
    exact errors
  have single : c.Single i key → report = (wholeError? n).toList.map (.failed path (t.node i).origin) := by
    rintro ⟨clean,once,only⟩
    change (c.root.load c.schema environment).1 ++ c.issues = _
    rw [clean,List.append_nil]
    exact Block.load_whole_single placed written spec range once only
  refine ⟨entry,found,by rw [value,readWhole_exact range],?_⟩
  unfold readWhole at value
  unfold wholeOutcome wholeError? readWhole at plain
  unfold wholeError? readWhole at single
  split at value <;> rename_i limit
  · simp only [if_pos limit] at plain single ⊢
    exact ⟨value,fun apart => (plain apart).1,single⟩
  · simp only [if_neg limit] at plain single ⊢
    exact ⟨value,plain,single⟩

def reservoir (n : Nat) : List Document :=
  [⟨none,[.block typeKind ["tank"] [.attribute "level" (.text "integer")],
    .block "tank" ["main"] [.attribute "level" (.number (.whole n))]]⟩]

def basin (n : Nat) : Block := blockOf none "tank" ["main"] ⟨[("level",toString n)],[],[]⟩

theorem reservoir_configuration (n : Nat) : Configuration.ofDocuments (reservoir n) =
    ⟨⟨"","",⟨none,"(root)"⟩,[],[basin n]⟩,[("tank",[("level",⟨.integer,false,none⟩)])],[]⟩ := by
  have plain : ¬"tank" = typeKind := by decide
  have spec : Spec.parse (Term.text "integer").raw = .ok ⟨.integer,false,none⟩ := Spec.parse_integer
  unfold Configuration.ofDocuments reservoir Configuration.addDocument
  simp only [List.foldl_cons,List.foldl_nil,Configuration.add,if_true,if_neg plain,Configuration.addType,declaredKind,
    specEntries,List.filterMap_cons,List.filterMap_nil,spec,Configuration.addEntry,nestedBlocks,contentOf]
  rfl

theorem reservoir_level (n : Nat) :
    let c := Configuration.ofDocuments (reservoir n)
    ∃ b, c.root.preorder[1]? = some b ∧ b.attributes.lookup "level" = some (Term.number (.whole n)).raw ∧
      Spec.parse "integer" = .ok (c.schema.spec b.kind "level") ∧ c.Single 1 "level" := by
  have preorder : Block.preorder ⟨"","",⟨none,"(root)"⟩,[],[basin n]⟩ = [⟨"","",⟨none,"(root)"⟩,[],[basin n]⟩,basin n] := by
    simp [Block.preorder,preorderBelow,basin,blockOf]
  intro c
  rw [show c = _ from reservoir_configuration n]
  unfold Configuration.Single
  dsimp only
  rw [preorder]
  refine ⟨basin n,rfl,rfl,Spec.parse_integer,rfl,?_,?_⟩
  · simp [basin,blockOf,Block.Repeats]
  · intro j b placed
    rcases j with _ | _ | j <;> cases placed
    · simp
    · simp [basin,blockOf]

theorem loadDocuments_integer_reservoir :
    (loadDocuments .empty (reservoir 250)).1 = [] ∧
      ((loadDocuments .empty (reservoir 250)).2.tree.slot? ⟨1,"level"⟩).bind Entry.value = some (.integer 250) := by
  obtain ⟨b,placed,written,declared,single⟩ := reservoir_level 250
  obtain ⟨entry,found,exact,stored⟩ := loadDocuments_integer .empty placed written declared (by decide)
  rw [if_pos (by decide)] at stored
  rw [found]
  exact ⟨stored.2.2 single,exact.mpr ⟨250,0,by decide,by decide⟩⟩

theorem reservoir_stored (environment : Environment) {n : Nat} (range : n < 2 ^ 63) :
    ((loadDocuments environment (reservoir n)).2.tree.slot? ⟨1,"level"⟩).bind Entry.value = (readWhole n).toOption := by
  obtain ⟨b,placed,written,declared,_⟩ := reservoir_level n
  rw [Spec.parse_integer] at declared
  obtain ⟨entry,found,value⟩ : ∃ entry, (loadDocuments environment (reservoir n)).2.tree.slot? ⟨1,"level"⟩ = some entry ∧
      entry.value = (readWhole n).toOption := Block.load_whole placed written (Except.ok.inj declared).symm range
  rw [found]
  exact value

-- The 54th binary digit is lost, and the largest integer of 64 bits is out of range.
theorem reservoir_inexact :
    (∃ b, (Configuration.ofDocuments (reservoir 9007199254740993)).root.preorder[1]? = some b ∧
      b.attributes.lookup "level" = some (Term.number (.whole 9007199254740993)).raw ∧
      Spec.parse "integer" = .ok ((Configuration.ofDocuments (reservoir 9007199254740993)).schema.spec b.kind "level")) ∧
    ((loadDocuments .empty (reservoir 9007199254740993)).2.tree.slot? ⟨1,"level"⟩).bind Entry.value =
      some (.integer 9007199254740992) ∧
    ((loadDocuments .empty (reservoir 9223372036854775807)).2.tree.slot? ⟨1,"level"⟩).bind Entry.value = none := by
  obtain ⟨b,placed,written,declared,_⟩ := reservoir_level 9007199254740993
  refine ⟨⟨b,placed,written,declared⟩,?_⟩
  rw [reservoir_stored .empty (by decide),reservoir_stored .empty (by decide)]
  exact ⟨rfl,rfl⟩

end CommandLine
end DeferredAttributes
