/-!
# Powers

Powers of whole numbers are those that come with the language, also where an algebra library with
powers of its own is in scope. So a definition that has a power in it is the same term everywhere.
-/

attribute [default_instance 20000] instPowNat
attribute [instance (20000)] instPowNat
