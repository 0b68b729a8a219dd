import Std.Data.TreeMap.Lemmas
import Mathlib.Data.String.Basic
import Mathlib.Data.List.MinMax
import Mathlib.Data.Prod.Lex

/-!
# Actor versions

The store behind local quotes keeps, for each namespace, what is known of each wallet's
discount and block. Reads finish in any order, so every change of a wallet is issued a
number, a pending publication captures the numbers it was built on, and a commit replaces
the wallets whose number has moved.
-/

namespace Cl8yDex.ActorVersions

/-- Discount in basis points, and whether the wallet is blocked. -/
abbrev Context := ℕ × Bool

abbrev Contexts := Std.TreeMap String Context

structure Entry where
  version : ℕ
  context : Context
  feeQuery : ℕ
  deriving DecidableEq

structure Namespace where
  revision : ℕ := 0
  entries : Std.TreeMap String Entry := ∅

structure Proof where
  revision : ℕ
  entries : Std.TreeMap String (Option ℕ)
  feeQueries : Std.TreeMap String ℕ

structure Snapshot where
  actors : Contexts
  actorRevision : ℕ

/-- The part of the store that wallets are kept in. `issued` is a history of the numbers
handed out, newest first; no function reads it. -/
structure Store where
  nextActorVersion : ℕ := 0
  actorVersions : Std.TreeMap String Namespace := ∅
  snapshots : Std.TreeMap String Snapshot := ∅
  earlyActorBlocks : Std.TreeMap String (List String) := ∅
  actorCapacityExhausted : List String := []
  actorCapacityRegistryExhausted : Bool := false
  issued : List ℕ := []

inductive CapacityError
  | exhausted
  deriving DecidableEq

def maxActorContexts : ℕ := 2048

def maxNamespaces : ℕ := 32

namespace Store

def entry (g : Store) (ns actor : String) : Option Entry :=
  g.actorVersions[ns]?.bind fun n => n.entries[actor]?

def revision (g : Store) (ns : String) : ℕ :=
  g.actorVersions[ns]?.elim 0 Namespace.revision

def published (g : Store) (ns actor : String) : Option Context :=
  g.snapshots[ns]?.bind fun s => s.actors[actor]?

def blocks (g : Store) (ns : String) : List String :=
  g.earlyActorBlocks[ns]?.getD []

def markActorCapacityExhausted (g : Store) (ns : String) : Store :=
  if g.actorCapacityExhausted.length < maxNamespaces ∨ ns ∈ g.actorCapacityExhausted then
    { g with actorCapacityExhausted := g.actorCapacityExhausted.insert ns }
  else { g with actorCapacityRegistryExhausted := true }

/-- The next number; running out of them is a panic. -/
def issue (g : Store) : Option (ℕ × Store) :=
  let version := g.nextActorVersion + 1
  if version < 2 ^ 64 then
    some (version, { g with nextActorVersion := version, issued := version :: g.issued })
  else none

def capture (g : Store) (ns : String) (actors : Contexts) : Proof where
  revision := g.revision ns
  entries := actors.map fun actor _ => (g.entry ns actor).map Entry.version
  feeQueries := ∅

/-- A full namespace drops the wallets that are neither blocked nor published. -/
def collect (g : Store) (ns actor : String) (n : Namespace) : Namespace :=
  if maxActorContexts ≤ n.entries.size ∧ actor ∉ n.entries then
    { n with entries := n.entries.filter fun actor entry =>
        entry.context.2 || (g.published ns actor).isSome || decide (actor ∈ g.blocks ns) }
  else n

def observe (g : Store) (ns actor : String) (context : Context) (changed : Bool) :
    Option (Store × Except CapacityError ℕ) :=
  if maxNamespaces ≤ g.actorVersions.size ∧ ns ∉ g.actorVersions then
    some ({ g with actorCapacityRegistryExhausted := true }, .error .exhausted)
  else
    let n := g.collect ns actor (g.actorVersions[ns]?.getD {})
    if maxActorContexts ≤ n.entries.size ∧ actor ∉ n.entries then
      some (({ g with actorVersions := g.actorVersions.insert ns n
        }).markActorCapacityExhausted ns, .error .exhausted)
    else
      let old := n.entries[actor]?
      let changed := changed || old.any fun entry => entry.context ≠ context
      let numbered := match old with
        | some entry => if changed then g.issue else some (entry.version, g)
        | none => g.issue
      numbered.map fun (version, g) =>
        let entry : Entry := ⟨version, context, old.elim 0 Entry.feeQuery⟩
        let n : Namespace :=
          ⟨if changed then version else n.revision, n.entries.insert actor entry⟩
        ({ g with actorVersions := g.actorVersions.insert ns n }, .ok version)

/-- Replaces the entry of a wallet that has one. -/
def setEntry (g : Store) (ns actor : String) (entry : Entry) : Store :=
  match g.actorVersions[ns]? with
  | some n =>
    let n := { n with entries := n.entries.insert actor entry }
    { g with actorVersions := g.actorVersions.insert ns n }
  | none => g

/-- The outer `none` is the panic of an exhausted counter, the inner one a refused read. -/
def beginFee (g : Store) (ns actor : String) (version : ℕ) : Option (Store × Option ℕ) :=
  match g.entry ns actor with
  | some entry =>
    if entry.version ≠ version ∨ entry.context.2 then some (g, none)
    else
      g.issue.map fun (query, g) =>
        (g.setEntry ns actor { entry with feeQuery := query }, some query)
  | none => some (g, none)

def feeCurrent (g : Store) (ns actor : String) (version query : ℕ) : Bool :=
  (g.entry ns actor).any fun entry =>
    entry.version = version && entry.feeQuery = query && !entry.context.2

def publicationFeesCurrent (g : Store) (ns : String) (proof : Proof) : Bool :=
  proof.feeQueries.toList.all fun query =>
    (g.entry ns query.1).any fun entry => entry.feeQuery = query.2

def acceptFee (g : Store) (ns actor : String) (context : Context) (changed : Bool) :
    Option (Store × Except CapacityError ℕ) :=
  if changed then g.observe ns actor context true
  else
    (g.entry ns actor).map fun entry =>
      (g.setEntry ns actor { entry with context := context }, .ok entry.version)

end Store

/-- An observed block is never the victim of a full snapshot. -/
def insertActor (actors : Contexts) (actor : String) (context : Context) :
    Except CapacityError Contexts :=
  if actor ∉ actors ∧ maxActorContexts ≤ actors.size then
    match ((actors.toList.filter fun entry => !entry.2.2).map Prod.fst).min? with
    | some victim => .ok ((actors.erase victim).insert actor context)
    | none => if context.2 then .error .exhausted else .ok actors
  else .ok (actors.insert actor context)

namespace Store

/-- The end of a fee read; a cancelled or failed one has no discount. -/
def complete (g : Store) (ns actor : String) (version query : ℕ) (discount : Option ℕ) :
    Option (Store × Except CapacityError (Option ℕ)) :=
  if !g.feeCurrent ns actor version query then some (g, .ok none)
  else
    let context := (discount.getD 0, false)
    let previous := g.snapshots[ns]?
    let changed : Bool := g.published ns actor ≠ some context
    (g.acceptFee ns actor context changed).map fun (g, accepted) =>
      match accepted, previous with
      | .error error, _ => (g, .error error)
      | .ok version, some previous =>
        if changed then
          match insertActor previous.actors actor context with
          | .ok actors =>
            ({ g with snapshots := g.snapshots.insert ns ⟨actors, g.revision ns⟩ },
              .ok (some version))
          | .error error => (g.markActorCapacityExhausted ns, .error error)
        else (g, .ok (some version))
      | .ok version, none => (g, .ok (some version))

/-- The loop body of `reconcile`: a wallet whose number has moved takes what is recorded of
it, else what is published, else nothing. -/
def reconcileActor (g : Store) (ns : String) (proof : Proof) (actors : Contexts)
    (actor : String) : Contexts :=
  let expected := proof.entries[actor]?.join
  let observed := g.entry ns actor
  if observed.map Entry.version = expected ∧
      (expected.isSome ∨ proof.revision = g.revision ns) then actors
  else
    match (observed.map Entry.context).or (g.published ns actor) with
    | some context => actors.insert actor context
    | none => actors.erase actor

def reconcile (g : Store) (ns : String) (actors : Contexts) (proof : Proof) :
    Except CapacityError Snapshot := do
  let actors := actors.keys.foldl (g.reconcileActor ns proof) actors
  let actors ← (g.blocks ns).foldlM (fun actors actor => insertActor actors actor (0, true))
    actors
  return ⟨actors, g.revision ns⟩

/-- The commit of a pending publication, and the wallets it publishes. -/
def commit (g : Store) (ns : String) (actors : Contexts) (proof : Proof) :
    Store × Option Contexts :=
  if maxNamespaces ≤ g.snapshots.size ∧ ns ∉ g.snapshots then (g, none)
  else if !g.publicationFeesCurrent ns proof then (g, none)
  else
    match g.reconcile ns actors proof with
    | .ok snapshot => ({ g with snapshots := g.snapshots.insert ns snapshot },
        some snapshot.actors)
    | .error _ => (g.markActorCapacityExhausted ns, none)

/-- One listed wallet: it keeps its number where its context is the recorded one. -/
def listActor (old : Namespace) (state : Std.TreeMap String Entry × Store)
    (listed : String × Context) : Option (Std.TreeMap String Entry × Store) :=
  let kept := old.entries[listed.1]?.filter fun entry => entry.context = listed.2
  let numbered := match kept with
    | some entry => some (entry.version, state.2)
    | none => state.2.issue
  numbered.map fun (version, g) => (state.1.insert listed.1 ⟨version, listed.2, 0⟩, g)

/-- One wallet of the old namespace, kept as a conservative tombstone while there is room. -/
def keepTombstone (changed : Bool) (revision : ℕ) (entries : Std.TreeMap String Entry)
    (old : String × Entry) : Std.TreeMap String Entry :=
  if maxActorContexts ≤ entries.size then entries
  else entries.insertIfNew old.1 ⟨if changed then revision else old.2.version, (0, false), 0⟩

def inventoryRefused (g : Store) (ns : String) (actors : Contexts) : Bool :=
  maxActorContexts < actors.size ∨ (maxNamespaces ≤ g.actorVersions.size ∧
    ns ∉ g.actorVersions)

/-- Whether a complete inventory differs from what is published or recorded. -/
def inventoryChanged (g : Store) (ns : String) (actors : Contexts) : Bool :=
  g.snapshots[ns]?.map (fun s => s.actors.toList) ≠ some actors.toList ∨
    ∃ old ∈ (g.actorVersions[ns]?.getD {}).entries.toList,
      old.2.context ≠ (0, false) ∧ old.1 ∉ actors

/-- A complete inventory replaces a namespace. `listed` and `olds` are the wallets of the
inventory and of the old namespace in the order the hash maps are iterated. -/
def authoritativeInventory (g : Store) (ns : String) (actors : Contexts)
    (listed : List (String × Context)) (olds : List (String × Entry)) :
    Option (Store × Except CapacityError Unit) :=
  if g.inventoryRefused ns actors then
    some (g.markActorCapacityExhausted ns, .error .exhausted)
  else do
    let old := g.actorVersions[ns]?.getD {}
    let changed := g.inventoryChanged ns actors
    let numbered := if changed then g.issue else some (old.revision, g)
    let (revision, g) ← numbered
    let (entries, g) ← listed.foldlM (listActor old) (∅, g)
    let entries := olds.foldl (keepTombstone changed revision) entries
    some ({ g with actorVersions := g.actorVersions.insert ns ⟨revision, entries⟩ }, .ok ())

end Store

end Cl8yDex.ActorVersions
