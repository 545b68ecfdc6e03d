import DeferredAttributes.Proofs.Block.Rewriting
import DeferredAttributes.Proofs.Block.Solution
import DeferredAttributes.Proofs.Resolution.Apart
import DeferredAttributes.Proofs.Tree.Arena

-- An expression over a loaded tree comes to what an attribute of the root with that text would
-- have come to in the load, as long as nothing else has or names the attribute's key.
namespace DeferredAttributes
open Resolution Expression

def Block.adding (b : Block) (place : Nat) (entry : String × String) : Block :=
  { b with attributes := b.attributes.take place ++ entry :: b.attributes.drop place }

namespace Declared
variable {schema : Schema}

theorem addAttributes_nodes (schema : Schema) (kind : String) (origin : Origin) (node : Nat)
    (attributes : List (String × String)) (d : Declared) :
    d.tree.SameNodes (attributes.foldl (addAttribute schema kind origin node) d).tree := by
  induction attributes generalizing d with
  | nil => exact (Tree.SameShape.refl _).sameNodes
  | cons entry rest ih =>
    have first : d.tree.SameNodes (addAttribute schema kind origin node d entry).tree := by
      unfold addAttribute
      dsimp only
      split
      · exact (Tree.SameShape.setValid ..).sameNodes
      · exact .declare ..
    exact first.trans (ih _)

theorem addBlock_size (schema : Schema) (b : Block) (d : Declared) (node : Nat) (bound : node < d.tree.nodes.size) :
    d.tree.nodes.size ≤ (addBlock schema d node b).tree.nodes.size := by
  have always : Kept schema fun _ => True :=
    ⟨fun _ _ _ _ _ _ _ => trivial,fun _ _ _ _ => trivial,fun _ _ _ _ _ _ _ => trivial⟩
  exact (always.block b d node bound trivial).2

mutual

theorem addBlock_nodes (b : Block) (d d' : Declared) (node : Nat) (bound : node < d.tree.nodes.size)
    (same : d.tree.SameNodes d'.tree) : (addBlock schema d node b).tree.SameNodes (addBlock schema d' node b).tree := by
  obtain ⟨kind,name,origin,attributes,children⟩ := b
  have here := addAttributes_nodes schema kind origin node attributes d
  have there := addAttributes_nodes schema kind origin node attributes d'
  unfold addBlock
  exact addChildren_nodes children _ _ node (here.size.symm ▸ bound) (here.symm.trans (same.trans there))

theorem addChildren_nodes (children : List Block) (d d' : Declared) (node : Nat) (bound : node < d.tree.nodes.size)
    (same : d.tree.SameNodes d'.tree) :
    (addChildren schema d node children).tree.SameNodes (addChildren schema d' node children).tree := by
  match children with
  | [] =>
    unfold addChildren
    exact same
  | child :: rest =>
    have known := congrArg (fun table => Table.find? table child.name) (same.children node)
    unfold addChildren
    rcases d.tree.addChild_withChild node child.name child.origin with ⟨existing,found,error,failed⟩ | ⟨none,added⟩ <;>
      rcases d'.tree.addChild_withChild node child.name child.origin with
        ⟨existing',found',error',failed'⟩ | ⟨none',added'⟩
    · rw [failed,failed']
      have taken := fun d : Declared => (Tree.SameShape.setValid d.tree node false).sameNodes
      exact addChildren_nodes rest _ _ node ((taken d).size.symm ▸ bound) ((taken d).symm.trans (same.trans (taken d')))
    · rw [none',found] at known
      cases known
    · rw [none,found'] at known
      cases known
    · rw [added,added']
      have grown := Tree.size_withChild child.name child.origin d.tree node
      have inside := addBlock_nodes child
        { d with tree := d.tree.withChild node child.name child.origin }
        { d' with tree := d'.tree.withChild node child.name child.origin } d.tree.nodes.size
        (by rw [grown]; omega) (same.withChild bound child.name child.origin)
      have bigger := addBlock_size schema child { d with tree := d.tree.withChild node child.name child.origin }
        d.tree.nodes.size (by rw [grown]; omega)
      dsimp only at bigger ⊢
      rw [same.size]
      exact addChildren_nodes rest _ _ node (by omega) inside

end

theorem ofBlock_nodes (schema : Schema) (root : Block) (place : Nat) (entry : String × String) :
    (ofBlock schema root).tree.SameNodes (ofBlock schema (root.adding place entry)).tree := by
  obtain ⟨kind,name,origin,attributes,children⟩ := root
  let empty : Declared := ⟨.new origin,[],[]⟩
  have here := addAttributes_nodes schema kind origin 0 attributes empty
  have there := addAttributes_nodes schema kind origin 0
    (attributes.take place ++ entry :: attributes.drop place) empty
  unfold ofBlock Block.adding addBlock
  exact addChildren_nodes children _ _ 0 (here.size.symm ▸ Nat.zero_lt_one) (here.symm.trans there)

end Declared

namespace Block
variable {root : Block} {place : Nat} {x e : String} {key : Key}

theorem lookup_adding (b : Block) {name : String} (apart : name ≠ x) :
    (b.adding place (x,e)).attributes.lookup name = b.attributes.lookup name := by
  have different : (name == x) = false := by simpa using apart
  conv => rhs; rw [← List.take_append_drop place b.attributes,List.lookup_append]
  unfold adding
  rw [List.lookup_append,List.lookup_cons,different]

theorem lookup_added {b : Block} (fresh : x ∉ b.attributes.map Prod.fst) :
    (b.adding place (x,e)).attributes.lookup x = some e := by
  have absent : (b.attributes.take place).lookup x = none := by
    rw [List.lookup_eq_none_iff]
    intro entry member
    have apart : x ≠ entry.1 := fun same => fresh (List.mem_map.mpr ⟨entry,List.mem_of_mem_take member,same.symm⟩)
    simpa using apart
  unfold adding
  rw [List.lookup_append,absent,List.lookup_cons_self]
  rfl

theorem declared_adding (apart : key ≠ ⟨0,x⟩) :
    ((root.adding place (x,e)).preorder[key.node]?).map (fun b => (b.kind,b.attributes.lookup key.name)) =
      (root.preorder[key.node]?).map fun b => (b.kind,b.attributes.lookup key.name) := by
  obtain ⟨i,name⟩ := key
  rw [preorder_cons,preorder_cons root]
  cases i with
  | zero =>
    have other : name ≠ x := fun same => apart (by rw [same])
    simp only [List.getElem?_cons_zero,Option.map_some,lookup_adding root other]
    rfl
  | succ i => rfl

end Block

namespace Declared
variable {schema : Schema} {root : Block} {place : Nat} {x e : String} {key : Key}

theorem slot_adding (apart : key ≠ ⟨0,x⟩) :
    (ofBlock schema (root.adding place (x,e))).tree.slot? key = (ofBlock schema root).tree.slot? key := by
  have view : ∀ b : Block, (ofBlock schema b).tree.slot? key =
      ((b.preorder[key.node]?).map fun b => (b.kind,b.attributes.lookup key.name)).bind fun found =>
        found.2.map fun _ => .blank (schema.spec found.1 key.name).type := by
    intro b
    rw [ofBlock_slot,Option.bind_map]
    rfl
  rw [view,view,Block.declared_adding apart]

theorem mem_adding {a : Assignment} (apart : a.target ≠ ⟨0,x⟩) :
    a ∈ (ofBlock schema (root.adding place (x,e))).assignments ↔ a ∈ (ofBlock schema root).assignments := by
  have view : ∀ b : Block, a ∈ (ofBlock schema b).assignments ↔
      ∃ kind, (b.preorder[a.target.node]?).map (fun b => (b.kind,b.attributes.lookup a.target.name)) =
        some (kind,some a.raw) ∧ a = schema.assignment kind a.target a.raw := by
    intro b
    rw [mem_ofBlock]
    constructor
    · rintro ⟨block,placed,written,equal⟩
      exact ⟨block.kind,by rw [placed,Option.map_some,written],equal⟩
    · rintro ⟨kind,found,equal⟩
      obtain ⟨block,placed,both⟩ := Option.map_eq_some_iff.mp found
      obtain ⟨rfl,written⟩ := Prod.mk.inj both
      exact ⟨block,placed,written,equal⟩
  rw [view,view,Block.declared_adding apart]

theorem adding_alike (schema : Schema) (root : Block) (place : Nat) (x e : String) :
    Tree.AlikeBut ⟨0,x⟩ (ofBlock schema root).tree (ofBlock schema (root.adding place (x,e))).tree :=
  ⟨ofBlock_nodes schema root place (x,e),fun _ apart => by rw [slot_adding apart]⟩

theorem ofBlock_unstored (schema : Schema) (root : Block) (key : Key) : (ofBlock schema root).tree.stored? key = none := by
  rw [Tree.stored_slot,ofBlock_slot]
  cases root.preorder[key.node]? with
  | none => rfl
  | some b =>
    rw [Option.bind_some]
    cases b.attributes.lookup key.name <;> rfl

theorem mem_added (schema : Schema) (place : Nat) (e : String) (fresh : x ∉ root.attributes.map Prod.fst) :
    schema.assignment root.kind ⟨0,x⟩ e ∈ (ofBlock schema (root.adding place (x,e))).assignments :=
  mem_ofBlock.mpr ⟨root.adding place (x,e),by rw [Block.preorder_cons]; rfl,Block.lookup_added fresh,rfl⟩

end Declared

theorem Schema.assignment_undeclared {schema : Schema} {kind : String} {key : Key} (raw : String)
    (undeclared : ((schema.find? kind).bind fun specs => specs.find? key.name) = none) :
    schema.assignment kind key raw =
      { target := key, raw := raw, resolver := .expression .decimal, validator := none, volatile := false } := by
  have spec : schema.spec kind key.name = .default := by
    unfold Schema.spec
    rw [undeclared]
    rfl
  unfold Schema.assignment
  rw [spec]
  rfl

theorem Resolver.resolve_decimal {raw : String} {s : Scope} {volatile : Bool} {n : Float} :
    ((Resolver.expression .decimal).resolve raw s volatile).1 = .ok (.decimal n) ↔
      (evaluate s.lookup raw volatile).1 = .ok n := by
  unfold resolve
  dsimp only
  split
  · rename_i number after evaluated
    rw [evaluated]
    constructor <;> intro same <;> cases same <;> rfl
  · rename_i error after failed
    rw [failed]
    constructor <;> intro same <;> cases same

namespace Block
variable {schema : Schema}

theorem load_decimal (environment : Environment) {root : Block} {a : Assignment}
    (member : a ∈ (Declared.ofBlock schema root).assignments) (decimal : a.resolver = .expression .decimal) (n : Float) :
    let t := (root.load schema environment).2.tree
    (t.slot? a.target).bind Entry.value = some (.decimal n) ↔
      (evaluate (Scope.lookup ⟨t,a.target.node,environment⟩) a.raw false).1 = .ok n := by
  intro t
  obtain ⟨last,run,_,tree,_⟩ := root.load_runs schema environment
  have truthful := run.truthful (root.load_open schema environment)
  have present : a ∈ (root.attempts schema environment).map Attempt.assignment := run.once.mem_iff.mpr member
  rw [show t = last.tree from tree,Tree.stored_value]
  constructor
  · rintro ⟨deterministic,stored⟩
    obtain ⟨e,attempted,rfl⟩ := List.mem_map.mp present
    obtain ⟨later,_,upheld⟩ := truthful.mem attempted
    obtain ⟨read,resolved,_⟩ := Assignment.answer_resolved (upheld.solved stored)
    rw [decimal] at resolved
    exact Resolver.resolve_decimal.mp (congrArg Prod.fst resolved)
  · intro evaluated
    have typed := Block.attempt_typed run member
    rw [decimal] at typed
    obtain ⟨entry,found,type⟩ := Option.map_eq_some_iff.mp typed
    have checked : a.resolver.check a.raw = .ok () := by
      unfold Resolver.check
      rw [decimal,check_parse.mpr (evaluate_parsed evaluated)]
    have resolved : (a.resolver.resolve a.raw ⟨last.tree,a.target.node,environment⟩ false).1 = .ok (.decimal n) := by
      rw [decimal]
      exact Resolver.resolve_decimal.mpr evaluated
    have accepted : last.tree.refusal? a.target (.decimal n) = none :=
      (Tree.refusal_typed found).mpr (by rw [type]; rfl)
    obtain ⟨deterministic,answered⟩ := Assignment.answer_accepted resolved accepted
    exact ⟨deterministic,truthful.closed a present checked _ answered⟩

-- An expression comes to a number over a loaded tree just when the load with one more attribute
-- of the root, of a name that is nowhere else, gives that attribute the number.
theorem load_evaluates (schema : Schema) (environment : Environment) (root : Block) (place : Nat) (x e : String)
    (fresh : x ∉ root.attributes.map Prod.fst)
    (undeclared : ((schema.find? root.kind).bind fun specs => specs.find? x) = none)
    (spared : ∀ name ∈ asked (tokens e), Tree.lastSegment name ≠ x)
    (unasked : ∀ b ∈ root.preorder, ∀ entry ∈ b.attributes, ∀ name ∈ asked (tokens entry.2),
      Tree.lastSegment name ≠ x) :
    let t := (root.load schema environment).2.tree
    let t' := ((root.adding place (x,e)).load schema environment).2.tree
    (∀ n, (evaluate (Scope.lookup ⟨t,0,environment⟩) e false).1 = .ok n ↔
      (t'.slot? ⟨0,x⟩).bind Entry.value = some (.decimal n)) ∧
    ∀ key, key ≠ ⟨0,x⟩ → (t'.slot? key).map (fun entry => (entry.value,entry.deterministic)) =
      (t.slot? key).map fun entry => (entry.value,entry.deterministic) := by
  intro t t'
  obtain ⟨last,run,_,tree,_⟩ := root.load_runs schema environment
  obtain ⟨last',run',_,tree',_⟩ := (root.adding place (x,e)).load_runs schema environment
  have ready := root.load_open schema environment
  have ready' := (root.adding place (x,e)).load_open schema environment
  have alike := Declared.adding_alike schema root place x e
  have blank := Declared.ofBlock_unstored schema root
  have blank' := Declared.ofBlock_unstored schema (root.adding place (x,e))
  have same : ∀ a : Assignment, a.target ≠ ⟨0,x⟩ → (a ∈ (root.attempts schema environment).map Attempt.assignment ↔
      a ∈ ((root.adding place (x,e)).attempts schema environment).map Attempt.assignment) := by
    intro a apart
    rw [run.once.mem_iff,run'.once.mem_iff]
    exact (Declared.mem_adding apart).symm
  have spares : ∀ a ∈ (root.attempts schema environment).map Attempt.assignment, a.target ≠ ⟨0,x⟩ →
      Spares ⟨0,x⟩ (a.resolver.names a.raw) := by
    intro a member _ name named
    obtain ⟨b,placed,written⟩ := Declared.mem_written (run.once.mem_iff.mp member)
    exact unasked b placed _ written name (Resolver.names_asked named)
  constructor
  · intro n
    have added := Declared.mem_added schema place e fresh
    have whole := load_decimal environment added (by rw [Schema.assignment_undeclared e undeclared]) n
    have apart := run.evaluate_but ready ready' run' alike blank same spares blank' spared 0 false n
    rw [← tree,← tree'] at apart
    exact apart.symm.trans whole.symm
  · intro key apart
    have kept := run.slot_but ready ready' run' alike blank same spares blank' apart (Declared.slot_adding apart)
    rwa [← tree,← tree'] at kept

end Block

def boiler : Block :=
  ⟨"boiler","main",.blank,[("base","3")],[⟨"tank","left",.blank,[("level","@base * 2")],[]⟩]⟩

theorem load_evaluates_boiler :
    "probe" ∉ boiler.attributes.map Prod.fst ∧
      ∃ n, (evaluate (Scope.lookup ⟨(boiler.load [] .empty).2.tree,0,.empty⟩) "@left/level + 1" false).1 = .ok n ∧
        (((boiler.adding 0 ("probe","@left/level + 1")).load [] .empty).2.tree.slot? ⟨0,"probe"⟩).bind Entry.value =
          some (.decimal n) := by
  have idle : (boiler.tried [] .empty).pending = [] := List.length_eq_zero_iff.mp (by decide +kernel)
  have solved : (evaluate (Scope.lookup ⟨(boiler.load [] .empty).2.tree,0,.empty⟩) "@left/level + 1" false).1.isOk =
      true := by
    rw [Block.load_idle idle]
    decide +kernel
  have fresh : "probe" ∉ boiler.attributes.map Prod.fst := by decide
  obtain ⟨same,_⟩ := Block.load_evaluates [] .empty boiler 0 "probe" "@left/level + 1" fresh rfl (by decide +kernel)
    (by decide +kernel)
  cases found : (evaluate (Scope.lookup ⟨(boiler.load [] .empty).2.tree,0,.empty⟩) "@left/level + 1" false).1 with
  | error error =>
    rw [found] at solved
    cases solved
  | ok n => exact ⟨fresh,n,rfl,(same n).mp found⟩

end DeferredAttributes
