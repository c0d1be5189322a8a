import Rollout.Yaml.Node.Basic
import Rollout.Yaml.Token.Basic

/-!
From tokens to nodes. A rule that the tokens break drops the rest of them, and where tokens are
missing the node is cut, so that what stands before that place is kept.
-/

namespace Rollout.Yaml

/-- Tokens that are still to be read, the number of each anchor name met so far, and what each
handle of a tag stands for.
-/
structure Assembly where
  tokens : List Token
  anchors : List (String × Nat)
  handles : List (String × List UInt8)

abbrev Assemble :=
  StateM Assembly

namespace Assemble

def peek : Assemble (Option Token) :=
  return (← get).tokens.head?

/-- Is the next token one of these? -/
def sees (tokens : List Token) : Assemble Bool :=
  return (← peek).any tokens.contains

def drop : Assemble Unit :=
  modify fun s => { s with tokens := s.tokens.tail }

/-- Stops at a token that must not stand there. -/
def stop : Assemble Node := do
  modify fun s => { s with tokens := [] }
  return .cut

/-- Numbers an anchor: with the count of the names before it. A name used again has a new number,
which a later name may share.
-/
def numberAnchor (name : Option String) : Assemble (Option Nat) := do
  match name with
  | none => return none
  | some name =>
      let anchors := (← get).anchors
      let number := anchors.length
      let anchors :=
        if (anchors.lookup name).isSome then
          anchors.map fun e => if e.1 = name then (name, number) else e
        else (name, number) :: anchors
      modify fun s => { s with anchors }
      return some number

def anchor : Assemble (Option String) := do
  match ← peek with
  | some (.anchor name) => drop; return some name
  | _ => return none

def tag : Assemble (Option (String × List UInt8)) := do
  match ← peek with
  | some (.tag handle suffix) => drop; return some (handle, suffix)
  | _ => return none

/-- An anchor and a tag, in either order. -/
def properties : Assemble (Option String × Option (String × List UInt8)) := do
  match ← anchor with
  | some name => return (some name, ← tag)
  | none =>
      let tag ← tag
      return (← anchor, tag)

/-- The bytes of a tag in full, if its handle is known. -/
def tagBytes? (handles : List (String × List UInt8)) (handle : String) (suffix : List UInt8)
    : Option (List UInt8) :=
  if handle = "" then some suffix else (handles.lookup handle).map (· ++ suffix)

def loneMark : List UInt8 :=
  ['!'.toNat.toUInt8]

mutual

/-- One node. Only in a block may block collections begin, and only behind a mark of a mapping may
a sequence begin without being indented further.
-/
def node (block loose : Bool) : Nat → Assemble Node
  | 0 => stop
  | steps + 1 => do
      if let some (.alias name) ← peek then
        match (← get).anchors.lookup name with
        | some number => drop; return .alias number
        | none => stop
      else
        let (name, tag) ← properties
        let handles := (← get).handles
        let bytes :=
          match tag with
          | none => some none
          | some (handle, suffix) => (tagBytes? handles handle suffix).map some
        match bytes, ← peek with
        | none, _ | _, none => stop
        | some bytes, some token =>
            let tag := bytes.bind Tag.ofBytes
            if loose && token = .entry then
              return .sequence ⟨← numberAnchor name, tag⟩ (← looseItems steps)
            else if token = .flowSequence then
              drop
              return .sequence ⟨← numberAnchor name, tag⟩ (← flowItems true steps)
            else if token = .flowMapping then
              drop
              return .mapping ⟨← numberAnchor name, tag⟩ (← flowEntries true steps)
            else if block && token = .blockSequence then
              drop
              return .sequence ⟨← numberAnchor name, tag⟩ (← blockItems steps)
            else if block && token = .blockMapping then
              drop
              return .mapping ⟨← numberAnchor name, tag⟩ (← blockEntries steps)
            else if let .scalar text plain := token then
              drop
              let tag := if bytes = some loneMark then none else tag
              return .scalar ⟨← numberAnchor name, tag⟩ plain text
            -- An anchor or a tag without content stands for an empty scalar.
            else if name.isSome || bytes.isSome then
              return .scalar ⟨← numberAnchor name, tag⟩ true ""
            else stop

/-- The items of an indented sequence. -/
def blockItems : Nat → Assemble (List Node)
  | 0 => return [← stop]
  | steps + 1 => do
      if ← sees [.blockEnd] then
        drop
        return []
      else if ← sees [.entry] then
        drop
        let item ← if ← sees [.entry, .blockEnd] then pure .empty else node true false steps
        return item :: (← blockItems steps)
      else return [← stop]

/-- The items of a sequence at the column of the mapping around it. -/
def looseItems : Nat → Assemble (List Node)
  | 0 => return [← stop]
  | steps + 1 => do
      if ← sees [.entry] then
        drop
        let item ←
          if ← sees [.entry, .key, .value, .blockEnd] then pure .empty
          else node true false steps
        return item :: (← looseItems steps)
      else if (← peek).isSome then return []
      else return [← stop]

/-- The entries of an indented mapping. -/
def blockEntries : Nat → Assemble (List (Node × Node))
  | 0 => return [(← stop, .cut)]
  | steps + 1 => do
      if ← sees [.blockEnd] then
        drop
        return []
      else if ← sees [.key] then
        drop
        let key ←
          if ← sees [.key, .value, .blockEnd] then pure .empty else node true true steps
        let value ←
          if ← sees [.value] then
            drop
            if ← sees [.key, .value, .blockEnd] then pure .empty else node true true steps
          else if (← peek).isSome then pure .empty
          else stop
        return (key, value) :: (← blockEntries steps)
      else return [(← stop, .cut)]

/-- The items of a sequence between brackets. An item may be a mapping of one entry, without braces
of its own; where its key is empty the token behind the mark is passed over.
-/
def flowItems (first : Bool) : Nat → Assemble (List Node)
  | 0 => return [← stop]
  | steps + 1 => do
      if ← sees [.flowSequenceEnd] then
        drop
        return []
      else if !first && !(← sees [.separator]) then return [← stop]
      else
        if !first then drop
        if ← sees [.flowSequenceEnd] then
          drop
          return []
        else if ← sees [.key] then
          drop
          let key ←
            if ← sees [.value, .separator, .flowSequenceEnd] then
              drop
              pure .empty
            else node false false steps
          let value ←
            if ← sees [.value] then
              drop
              if ← sees [.separator, .flowSequenceEnd] then pure .empty
              else node false false steps
            else if (← peek).isSome then pure .empty
            else stop
          -- Where the tokens end here, the mapping is cut behind its entry.
          let ended := if (← peek).isSome then [] else [(.cut, .cut)]
          return .mapping .none ((key, value) :: ended) :: (← flowItems false steps)
        else
          let item ← node false false steps
          return item :: (← flowItems false steps)

/-- The entries of a mapping between braces. A key without a mark has no value. -/
def flowEntries (first : Bool) : Nat → Assemble (List (Node × Node))
  | 0 => return [(← stop, .cut)]
  | steps + 1 => do
      if ← sees [.flowMappingEnd] then
        drop
        return []
      else if !first && !(← sees [.separator]) then return [(← stop, .cut)]
      else
        if !first then drop
        if ← sees [.flowMappingEnd] then
          drop
          return []
        else if ← sees [.key] then
          drop
          let key ←
            if ← sees [.value, .separator, .flowMappingEnd] then pure .empty
            else node false false steps
          let value ←
            if ← sees [.value] then
              drop
              if ← sees [.separator, .flowMappingEnd] then pure .empty
              else node false false steps
            else if (← peek).isSome then pure .empty
            else stop
          return (key, value) :: (← flowEntries false steps)
        else
          let key ← node false false steps
          let value ← if (← peek).isSome then pure .empty else stop
          return (key, value) :: (← flowEntries false steps)

end

end Assemble

end Rollout.Yaml
