import Mathlib.Logic.Function.Iterate
import Fleta.ContextHash
import Fleta.SortedInsert

/-!
# The rank table of the proof of formulator

The formulators take turns in the order of their scores. A score is the phase of the
formulator above four bytes of its hash space; a turn that ends and a turn that is
missed raise the phase. The table keeps its candidates sorted by binary search.
-/

namespace Fleta.Pof

open ByteOrder

/-- The source keeps the score beside the two fields it is computed from. -/
structure Rank where
  address : Address
  publicHash : PublicHash
  phase : UInt32
  hashSpace : Hash256
deriving DecidableEq

namespace Rank

def score (rank : Rank) : UInt64 :=
  UInt64.ofNat (rank.phase.toNat * 2 ^ 32 + fromLittleEndian (rank.hashSpace.take 4))

/-- Equal scores are ordered by the address. -/
def less (rank b : Rank) : Bool :=
  rank.score < b.score || (rank.score == b.score && (compare rank.address b.address).isLT)

end Rank

/-- `rankMap` of the source holds the candidates by their address. -/
structure RankTable where
  height : UInt32
  candidates : List Rank

namespace RankTable

def insertRankToList (ranks : List Rank) (s : Rank) : List Rank :=
  let idx := sortSearch ranks.length fun i => s.less (ranks.getD i s)
  ranks.take idx ++ s :: ranks.drop idx

def new : RankTable := ⟨0, []⟩

def rankOf (addr : Address) (rt : RankTable) : Option Rank :=
  rt.candidates.find? fun s => s.address == addr

def candidateCount (rt : RankTable) : Nat := rt.candidates.length

def topRank (timeoutCount : Nat) (rt : RankTable) : Except Err Rank :=
  match rt.candidates[timeoutCount]? with
  | none => .error .insufficientCandidateCount
  | some rank => .ok rank

def topRankInMap (formulatorMap : List Address) (rt : RankTable) : Except Err (Rank × Nat) :=
  match rt.candidates.zipIdx.find? fun entry => formulatorMap.contains entry.1.address with
  | none => .error .insufficientCandidateCount
  | some entry => .ok entry

def ranksInMap (formulatorMap : List Address) (limit : Nat) (rt : RankTable) :
    Except Err (List Rank) :=
  if formulatorMap = [] then .error .insufficientCandidateCount
  else .ok ((rt.candidates.filter fun r => formulatorMap.contains r.address).take (max limit 1))

def smallestPhase (rt : RankTable) : UInt32 := (rt.candidates.head?.map Rank.phase).getD 0

def addRank (s : Rank) (rt : RankTable) : Except Err Unit × RankTable :=
  if rt.candidates ≠ [] ∧ s.phase < rt.smallestPhase then (.error .invalidPhase, rt)
  else if (rt.rankOf s.address).isSome then (.error .existAddress, rt)
  else (.ok (), { rt with candidates := insertRankToList rt.candidates s })

def removeRank (addr : Address) (rt : RankTable) : RankTable :=
  { rt with candidates := rt.candidates.filter fun s => s.address != addr }

def forwardCandidate : List Rank → List Rank
  | [] => []
  | m :: rest => insertRankToList rest { m with phase := m.phase + 2 }

def forwardCandidates (timeoutCount : Nat) (rt : RankTable) : Except Err RankTable :=
  if timeoutCount ≥ rt.candidates.length then .error .exceedCandidateCount
  else .ok { rt with candidates := forwardCandidate^[timeoutCount] rt.candidates }

/-- The top candidate has had its turn. The source panics when there is none. -/
def forwardTop (lastTableAppendHash : Hash256) (rt : RankTable) : Except Err RankTable :=
  match rt.candidates with
  | [] => .error .panicked
  | top :: rest =>
    .ok {
      height := rt.height + 1
      candidates := insertRankToList rest
        { top with phase := top.phase + 1, hashSpace := lastTableAppendHash } }

end RankTable

end Fleta.Pof
