/-!
# Powers

A power of a natural number or an integer is the one that is computed by repeated multiplication,
also where other notions of power are in scope.
-/

attribute [default_instance (100000), instance (100000)] instPowNat
