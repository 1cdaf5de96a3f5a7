/-!
# Powers

A power of a natural number or of an integer is the one of the core library, also in a module that
imports another library with powers of its own.
-/

set_option autoImplicit false

attribute [instance (high), default_instance (high + 1)] instPowNat
