import EdoPlugin.Rounding
import EdoPlugin.Site

/-!
# Flags, finds and solves

The functions of `challenge_type.py` behind the submission route.  A challenge can have several of
CTFd's flags; an owner that finds one gets an `EdoFlagSolve` row, and one that has found all of them
a row in CTFd's `Solves`, which is what the scoreboard reads.  How a flag is compared with a
submission is up to CTFd's flag types, so the comparison is a parameter.
-/

namespace EdoPlugin

open Interaction

/-- `get_flag_class(flag.type).compare(flag, submission)`. -/
abbrev FlagComparison := Flag → String → Bool

namespace ChallengeType

section Finds

variable (compare : FlagComparison)

def firstMatchingFlag (challengeId : Nat) (submission : String) : Plugin (Option Flag) := do
  let db ← select
  return (db.flagsOf challengeId).find? fun flag => compare flag submission

/-- `("team", team.id) if team is not None else ("user", user.id)`. -/
def solverOf (userId : Int) : Option Int → Owner
  | some teamId => ⟨"team", teamId⟩
  | none => ⟨"user", userId⟩

def recordFlagFind (challengeId : Nat) (userId : Int) (team : Option Int) (submission : String) :
    Plugin (Option Flag) := do
  let matching ← firstMatchingFlag compare challengeId submission
  match matching with
  | none => return none
  | some flag =>
    let db ← select
    match db.flagSolve (solverOf userId team) flag.id with
    | some _ => return some flag
    | none =>
      commit [.insertFlagSolve ⟨challengeId, flag.id, solverOf userId team⟩]
      return some flag

end Finds

def insertCtfdSolve (challengeId : Nat) (userId : Int) (team : Option Int) (submission ip : String) :
    Plugin Unit := do
  let db ← select
  match db.solveOf challengeId (solverOf userId team) with
  | some _ => return ()
  | none => commit [.insertSolve ⟨userId, team, challengeId, ip, submission⟩]

def insertCtfdFail (challengeId : Nat) (userId : Int) (team : Option Int) (submission ip : String) :
    Plugin Unit :=
  commit [.insertFail ⟨userId, team, challengeId, ip, submission⟩]

/-! ## Progress -/

structure Progress where
  flagsTotal : Nat
  flagsSolved : Nat
  percentEarned : Rat
deriving DecidableEq, Repr

/-- `round(q, 1)` -/
def roundToTenth (q : Rat) : Rat := roundHalfEven (q * 10) / 10

/-- `weights.get(flag_id, 100)`, where `weights` has the rows of the given flags. -/
def weightOf (rows : List EdoFlagWeight) (flags : List Flag) (flagId : Nat) : Int :=
  match rows.find? fun row => row.flagId = flagId ∧ flags.any fun flag => flag.id = flagId with
  | some row => row.weightPct
  | none => 100

/-- The flags of a challenge that an owner has found, each once. -/
def foundFlagIds (db : PluginDb) (challengeId : Nat) (owner : Owner) : List Nat :=
  ((db.flagSolves.filter fun solve => solve.challengeId = challengeId ∧ solve.owner = owner).map
    EdoFlagSolve.flagId).dedup

def progressOf (flags : List Flag) (weights : List EdoFlagWeight) (found : List Nat) : Progress :=
  let sum := (flags.map fun flag => weightOf weights flags flag.id).sum
  let total := if sum = 0 then 100 else sum
  let earned := (found.map (weightOf weights flags)).sum
  ⟨flags.length, found.length, roundToTenth ((100 * earned : Int) / (total : Rat))⟩

def ownerProgress (challengeId : Nat) (owner : Owner) : Plugin Progress := do
  let flagRows ← select
  let weightRows ← select
  let solveRows ← select
  return progressOf (flagRows.flagsOf challengeId) weightRows.flagWeights
    (foundFlagIds solveRows challengeId owner)

/-- `progress["flags_solved"] >= progress["flags_total"]` -/
def Progress.complete (progress : Progress) : Bool := progress.flagsTotal ≤ progress.flagsSolved

end ChallengeType

end EdoPlugin
