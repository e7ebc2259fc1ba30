import Rulebook.Proofs.Run.Reference

namespace Rulebook

-- The failure of a check at a place, before anything is made of it.
structure Finding where
  place : Place
  check : String
  failure : Failure

namespace Setting

def findings (run : Run) : Setting Finding :=
  { run, report := Finding.mk }

end Setting

-- There is always something to be found, if only the empty list.
theorem exists_findings (run : Run) (places : List Place) :
    ∃ findings, ContributeAll (.findings run) places findings :=
  exists_contributeAll fun place _ => exists_contributes _ place

end Rulebook
