namespace SchemaGraph

/-!
# Members of values

A reference may go on into a value, to a member that all values of its type have.  What
matters of a member is the type of its value: it is listed under that type, together with
the other members of the same type.

`memberType?` — the type of a member of the values of a type
-/

/-- Names of members, by the type of their values. -/
abbrev Members := List (String × List String)

/-- The type under which a name is listed. -/
def Members.typeOf? (members : Members) (name : String) : Option String :=
  (members.find? fun (_, lines) => lines.any fun line => (line.splitOn " ").contains name).map
    (·.1)

/-- Members of all values. -/
def commonMembers : Members := [
  ("builtin_function_or_method", [
    "__dir__ __format__ __getstate__ __init_subclass__ __new__ __reduce__ __reduce_ex__",
    "__sizeof__ __subclasshook__"]),
  ("method-wrapper", [
    "__delattr__ __eq__ __ge__ __getattribute__ __gt__ __hash__ __init__ __le__ __lt__ __ne__",
    "__repr__ __setattr__ __str__"]),
  ("str", ["__doc__"]),
  ("type", ["__class__"])]

/-- Members of the values of single types; they come before those of all values. -/
def ownMembers : List (String × Members) := [
  ("ABCMeta", [
    ("ABCMeta", ["__base__"]),
    ("NoneType", ["__hash__ __reversed__ __text_signature__"]),
    ("_abc_data", ["_abc_impl"]),
    ("builtin_function_or_method", ["__prepare__ __subclasses__ mro"]),
    ("dict", ["__annotations__"]),
    ("frozenset", ["__abstractmethods__"]),
    ("function", [
      "__contains__ __copy__ __deepcopy__ __delitem__ __eq__ __getitem__ __init__ __ior__",
      "__iter__ __len__ __or__ __repr__ __ror__ __setitem__ _commit_removals _scrub_removals",
      "clear copy get items keyrefs keys pop popitem setdefault update values"]),
    ("getset_descriptor", ["__weakref__"]),
    ("int", ["__basicsize__ __dictoffset__ __flags__ __itemsize__ __weakrefoffset__"]),
    ("mappingproxy", ["__dict__"]),
    ("method", [
      "__class_getitem__ __instancecheck__ __subclasscheck__ __subclasshook__ _abc_caches_clear",
      "_abc_registry_clear _dump_registry register"]),
    ("method-wrapper", ["__call__"]),
    ("method_descriptor", [
      "__dir__ __format__ __getstate__ __reduce__ __reduce_ex__ __sizeof__"]),
    ("object", ["_MutableMapping__marker"]),
    ("str", ["__module__ __name__ __qualname__"]),
    ("tuple", ["__bases__ __mro__ __slots__"]),
    ("wrapper_descriptor", [
      "__delattr__ __ge__ __getattribute__ __gt__ __le__ __lt__ __ne__ __setattr__ __str__"])]),
  ("Bag", [
    ("NoneType", ["__weakref__"]),
    ("_DataclassParams", ["__dataclass_params__"]),
    ("dict", ["__annotations__ __dataclass_fields__ __dict__"]),
    ("method", ["__delattr__ __eq__ __hash__ __init__ __repr__ __setattr__"]),
    ("str", ["__module__"]),
    ("tuple", ["__match_args__"])]),
  ("BigInt", [
    ("builtin_function_or_method", [
      "__ceil__ __floor__ __getnewargs__ __round__ __trunc__ as_integer_ratio bit_count",
      "bit_length conjugate from_bytes to_bytes"]),
    ("dict", ["__dict__"]),
    ("int", ["denominator imag numerator real"]),
    ("method", ["__repr__"]),
    ("method-wrapper", [
      "__abs__ __add__ __and__ __bool__ __divmod__ __float__ __floordiv__ __index__ __int__",
      "__invert__ __lshift__ __mod__ __mul__ __neg__ __or__ __pos__ __pow__ __radd__ __rand__",
      "__rdivmod__ __rfloordiv__ __rlshift__ __rmod__ __rmul__ __ror__ __rpow__ __rrshift__",
      "__rshift__ __rsub__ __rtruediv__ __rxor__ __sub__ __truediv__ __xor__"]),
    ("str", ["__module__"])]),
  ("EnumType", [
    ("NoneType", ["__text_signature__"]),
    ("Variant", [
      "any array bigint boolean catch custom date default enum file intersection lazy literal",
      "map nan never nonoptional null nullable number object optional pipe prefault promise",
      "readonly record set string success symbol template_literal transform tuple undefined",
      "union unknown void"]),
    ("builtin_function_or_method", [
      "__instancecheck__ __subclasscheck__ __subclasses__ maketrans mro"]),
    ("dict", ["__annotations__"]),
    ("function", ["__dir__ __format__ __init__ __new__ __reduce_ex__ __repr__ __str__"]),
    ("int", ["__basicsize__ __dictoffset__ __flags__ __itemsize__ __weakrefoffset__"]),
    ("mappingproxy", ["__dict__ __members__"]),
    ("method", [
      "__bool__ __call__ __getattr__ __prepare__ __reversed__ _check_for_existing_members_",
      "_convert_ _create_ _find_data_repr_ _find_data_type_ _find_new_ _get_mixins_"]),
    ("method-wrapper", ["__or__ __ror__"]),
    ("method_descriptor", [
      "__getnewargs__ __getstate__ __reduce__ __sizeof__ capitalize casefold center count",
      "encode endswith expandtabs find format format_map index isalnum isalpha isascii",
      "isdecimal isdigit isidentifier islower isnumeric isprintable isspace istitle isupper",
      "join ljust lower lstrip partition removeprefix removesuffix replace rfind rindex rjust",
      "rpartition rsplit rstrip split splitlines startswith strip swapcase title translate",
      "upper zfill"]),
    ("str", ["__module__ __name__ __qualname__"]),
    ("tuple", ["__bases__ __mro__"]),
    ("type", ["__base__"]),
    ("wrapper_descriptor", [
      "__add__ __contains__ __delattr__ __eq__ __ge__ __getattribute__ __getitem__ __gt__",
      "__hash__ __iter__ __le__ __len__ __lt__ __mod__ __mul__ __ne__ __rmod__ __rmul__",
      "__setattr__"])]),
  ("NoneType", [
    ("NoneType", ["__doc__"]),
    ("method-wrapper", ["__bool__"])]),
  ("Pattern", [
    ("builtin_function_or_method", ["__class_getitem__ __copy__ __deepcopy__ findall split"]),
    ("builtin_method", ["finditer fullmatch match scanner search sub subn"]),
    ("dict", ["groupindex"]),
    ("int", ["flags groups"]),
    ("str", ["__module__ pattern"])]),
  ("RLock", [
    ("NoneType", ["__doc__"]),
    ("builtin_function_or_method", [
      "__enter__ __exit__ _acquire_restore _at_fork_reinit _is_owned _recursion_count",
      "_release_save acquire release"]),
    ("str", ["__module__"])]),
  ("ReferenceType", [
    ("NoneType", ["__callback__ __doc__"]),
    ("builtin_function_or_method", ["__class_getitem__"]),
    ("method-wrapper", ["__call__"])]),
  ("Registry", [
    ("NoneType", ["__weakref__"]),
    ("WeakKeyDictionary", ["_map"]),
    ("dict", ["__dict__ _ids"]),
    ("mappingproxy", ["ids"]),
    ("method", ["__contains__ __init__ __len__ _drop_id add clear get has remove"]),
    ("str", ["__module__"])]),
  ("SchemaNode", [
    ("NoneType", ["__weakref__"]),
    ("_DataclassParams", ["__dataclass_params__"]),
    ("dict", ["__annotations__ __dataclass_fields__ __dict__"]),
    ("method", [
      "__delattr__ __init__ __repr__ __setattr__ array catch clone content_encoding default",
      "describe format gt length lt max meta min multiple_of nonoptional nullable optional pipe",
      "prefault readonly regex with_bag"]),
    ("str", ["__module__"]),
    ("tuple", ["__match_args__"])]),
  ("SimpleNamespace", [
    ("NoneType", ["__hash__"]),
    ("dict", ["__dict__"])]),
  ("Variant", [
    ("EnumType", ["__class__ __objclass__"]),
    ("NoneType", ["__weakref__"]),
    ("Variant", [
      "any array bigint boolean catch custom date default enum file intersection lazy literal",
      "map nan never nonoptional null nullable number object optional pipe prefault promise",
      "readonly record set string success symbol template_literal transform tuple undefined",
      "union unknown void"]),
    ("bool", ["_use_args_"]),
    ("builtin_function_or_method", [
      "__getnewargs__ _new_member_ capitalize casefold center count encode endswith expandtabs",
      "find format format_map index isalnum isalpha isascii isdecimal isdigit isidentifier",
      "islower isnumeric isprintable isspace istitle isupper join ljust lower lstrip maketrans",
      "partition removeprefix removesuffix replace rfind rindex rjust rpartition rsplit rstrip",
      "split splitlines startswith strip swapcase title translate upper zfill"]),
    ("dict", ["__annotations__ __dict__ _member_map_ _value2member_map_"]),
    ("int", ["_sort_order_"]),
    ("list", ["_member_names_ _unhashable_values_"]),
    ("method", [
      "__copy__ __deepcopy__ __dir__ __format__ __init__ __new__ __reduce_ex__ __repr__ __str__",
      "_generate_next_value_ _missing_"]),
    ("method-wrapper", [
      "__add__ __contains__ __getitem__ __iter__ __len__ __mod__ __mul__ __rmod__ __rmul__",
      "_value_repr_"]),
    ("str", ["__module__ _name_ _value_ name value"]),
    ("type", ["_member_type_"])]),
  ("WeakKeyDictionary", [
    ("ABCMeta", ["__class__"]),
    ("NoneType", ["__hash__ __reversed__"]),
    ("ReferenceType", ["__weakref__"]),
    ("_abc_data", ["_abc_impl"]),
    ("bool", ["_dirty_len"]),
    ("dict", ["__annotations__ __dict__ data"]),
    ("frozenset", ["__abstractmethods__"]),
    ("function", ["_remove"]),
    ("list", ["_pending_removals"]),
    ("method", [
      "__class_getitem__ __contains__ __copy__ __deepcopy__ __delitem__ __eq__ __getitem__",
      "__init__ __ior__ __iter__ __len__ __or__ __repr__ __ror__ __setitem__ __subclasshook__",
      "_commit_removals _scrub_removals clear copy get items keyrefs keys pop popitem",
      "setdefault update values"]),
    ("object", ["_MutableMapping__marker"]),
    ("set", ["_iterating"]),
    ("str", ["__module__"]),
    ("tuple", ["__slots__"])]),
  ("_DataclassParams", [
    ("NoneType", ["__doc__"]),
    ("bool", ["eq frozen init order repr unsafe_hash"]),
    ("method", ["__init__ __repr__"]),
    ("str", ["__module__"]),
    ("tuple", ["__slots__"])]),
  ("_Undefined", [
    ("NoneType", ["__weakref__"]),
    ("_Undefined", ["_instance"]),
    ("dict", ["__dict__"]),
    ("function", ["__new__"]),
    ("method", ["__bool__ __repr__"]),
    ("str", ["__module__"])]),
  ("_abc_data", [
    ("str", ["__module__"])]),
  ("bool", [
    ("builtin_function_or_method", [
      "__ceil__ __floor__ __getnewargs__ __round__ __trunc__ as_integer_ratio bit_count",
      "bit_length conjugate from_bytes to_bytes"]),
    ("int", ["denominator imag numerator real"]),
    ("method-wrapper", [
      "__abs__ __add__ __and__ __bool__ __divmod__ __float__ __floordiv__ __index__ __int__",
      "__invert__ __lshift__ __mod__ __mul__ __neg__ __or__ __pos__ __pow__ __radd__ __rand__",
      "__rdivmod__ __rfloordiv__ __rlshift__ __rmod__ __rmul__ __ror__ __rpow__ __rrshift__",
      "__rshift__ __rsub__ __rtruediv__ __rxor__ __sub__ __truediv__ __xor__"])]),
  ("builtin_function_or_method", [
    ("NoneType", ["__module__"]),
    ("method-wrapper", ["__call__"]),
    ("str", ["__name__ __qualname__ __self__ __text_signature__"])]),
  ("builtin_method", [
    ("NoneType", ["__doc__ __module__"]),
    ("Pattern", ["__self__"]),
    ("method-wrapper", ["__call__"]),
    ("str", ["__name__ __qualname__ __text_signature__"])]),
  ("bytes", [
    ("builtin_function_or_method", [
      "__bytes__ __getnewargs__ capitalize center count decode endswith expandtabs find fromhex",
      "hex index isalnum isalpha isascii isdigit islower isspace istitle isupper join ljust",
      "lower lstrip maketrans partition removeprefix removesuffix replace rfind rindex rjust",
      "rpartition rsplit rstrip split splitlines startswith strip swapcase title translate",
      "upper zfill"]),
    ("method-wrapper", [
      "__add__ __contains__ __getitem__ __iter__ __len__ __mod__ __mul__ __rmod__ __rmul__"])]),
  ("cached_property", [
    ("NoneType", ["__weakref__"]),
    ("RLock", ["lock"]),
    ("dict", ["__dict__"]),
    ("function", ["func"]),
    ("method", ["__class_getitem__ __get__ __init__ __set_name__"]),
    ("str", ["__module__ attrname"])]),
  ("code", [
    ("builtin_function_or_method", ["_varname_from_oparg co_lines co_positions replace"]),
    ("bytes", ["_co_code_adaptive co_code co_exceptiontable co_linetable co_lnotab"]),
    ("int", [
      "co_argcount co_firstlineno co_flags co_kwonlyargcount co_nlocals co_posonlyargcount",
      "co_stacksize"]),
    ("str", ["co_filename co_name co_qualname"]),
    ("tuple", ["co_cellvars co_consts co_freevars co_names co_varnames"])]),
  ("dict", [
    ("NoneType", ["__hash__"]),
    ("builtin_function_or_method", [
      "__class_getitem__ __contains__ __getitem__ __reversed__ clear copy fromkeys get items",
      "keys pop popitem setdefault update values"]),
    ("method-wrapper", ["__delitem__ __ior__ __iter__ __len__ __or__ __ror__ __setitem__"])]),
  ("float", [
    ("builtin_function_or_method", [
      "__ceil__ __floor__ __getformat__ __getnewargs__ __round__ __trunc__ as_integer_ratio",
      "conjugate fromhex hex is_integer"]),
    ("float", ["imag real"]),
    ("method-wrapper", [
      "__abs__ __add__ __bool__ __divmod__ __float__ __floordiv__ __int__ __mod__ __mul__",
      "__neg__ __pos__ __pow__ __radd__ __rdivmod__ __rfloordiv__ __rmod__ __rmul__ __rpow__",
      "__rsub__ __rtruediv__ __sub__ __truediv__"])]),
  ("frozenset", [
    ("builtin_function_or_method", [
      "__class_getitem__ __contains__ copy difference intersection isdisjoint issubset",
      "issuperset symmetric_difference union"]),
    ("method-wrapper", [
      "__and__ __iter__ __len__ __or__ __rand__ __ror__ __rsub__ __rxor__ __sub__ __xor__"])]),
  ("function", [
    ("NoneType", ["__closure__ __doc__ __kwdefaults__"]),
    ("code", ["__code__"]),
    ("dict", ["__annotations__ __builtins__ __dict__ __globals__"]),
    ("method-wrapper", ["__call__ __get__"]),
    ("str", ["__module__ __name__ __qualname__"]),
    ("tuple", ["__defaults__"])]),
  ("getset_descriptor", [
    ("method-wrapper", ["__delete__ __get__ __set__"]),
    ("str", ["__name__ __qualname__"]),
    ("type", ["__objclass__"])]),
  ("int", [
    ("builtin_function_or_method", [
      "__ceil__ __floor__ __getnewargs__ __round__ __trunc__ as_integer_ratio bit_count",
      "bit_length conjugate from_bytes to_bytes"]),
    ("int", ["denominator imag numerator real"]),
    ("method-wrapper", [
      "__abs__ __add__ __and__ __bool__ __divmod__ __float__ __floordiv__ __index__ __int__",
      "__invert__ __lshift__ __mod__ __mul__ __neg__ __or__ __pos__ __pow__ __radd__ __rand__",
      "__rdivmod__ __rfloordiv__ __rlshift__ __rmod__ __rmul__ __ror__ __rpow__ __rrshift__",
      "__rshift__ __rsub__ __rtruediv__ __rxor__ __sub__ __truediv__ __xor__"])]),
  ("list", [
    ("NoneType", ["__hash__"]),
    ("builtin_function_or_method", [
      "__class_getitem__ __getitem__ __reversed__ append clear copy count extend index insert",
      "pop remove reverse sort"]),
    ("method-wrapper", [
      "__add__ __contains__ __delitem__ __iadd__ __imul__ __iter__ __len__ __mul__ __rmul__",
      "__setitem__"])]),
  ("mappingproxy", [
    ("NoneType", ["__doc__ __hash__"]),
    ("builtin_function_or_method", [
      "__class_getitem__ __reversed__ copy get items keys values"]),
    ("method-wrapper", ["__contains__ __getitem__ __ior__ __iter__ __len__ __or__ __ror__"])]),
  ("method", [
    ("NoneType", ["__doc__"]),
    ("SchemaNode", ["__self__"]),
    ("function", ["__func__"]),
    ("method-wrapper", ["__call__"])]),
  ("method-wrapper", [
    ("method-wrapper", ["__call__"]),
    ("str", ["__name__ __qualname__ __self__ __text_signature__"]),
    ("type", ["__objclass__"])]),
  ("method_descriptor", [
    ("method-wrapper", ["__call__ __get__"]),
    ("str", ["__name__ __qualname__ __text_signature__"]),
    ("type", ["__objclass__"])]),
  ("module", [
    ("NoneType", ["__doc__ __loader__ __package__ __spec__"]),
    ("dict", ["__annotations__ __dict__"]),
    ("str", ["__name__"])]),
  ("property", [
    ("NoneType", ["fdel fset"]),
    ("bool", ["__isabstractmethod__"]),
    ("builtin_function_or_method", ["__set_name__ deleter getter setter"]),
    ("function", ["fget"]),
    ("method-wrapper", ["__delete__ __get__ __set__"])]),
  ("set", [
    ("NoneType", ["__hash__"]),
    ("builtin_function_or_method", [
      "__class_getitem__ __contains__ add clear copy difference difference_update discard",
      "intersection intersection_update isdisjoint issubset issuperset pop remove",
      "symmetric_difference symmetric_difference_update union update"]),
    ("method-wrapper", [
      "__and__ __iand__ __ior__ __isub__ __iter__ __ixor__ __len__ __or__ __rand__ __ror__",
      "__rsub__ __rxor__ __sub__ __xor__"])]),
  ("str", [
    ("builtin_function_or_method", [
      "__getnewargs__ capitalize casefold center count encode endswith expandtabs find format",
      "format_map index isalnum isalpha isascii isdecimal isdigit isidentifier islower",
      "isnumeric isprintable isspace istitle isupper join ljust lower lstrip maketrans",
      "partition removeprefix removesuffix replace rfind rindex rjust rpartition rsplit rstrip",
      "split splitlines startswith strip swapcase title translate upper zfill"]),
    ("method-wrapper", [
      "__add__ __contains__ __getitem__ __iter__ __len__ __mod__ __mul__ __rmod__ __rmul__"])]),
  ("tuple", [
    ("builtin_function_or_method", ["__class_getitem__ __getnewargs__ count index"]),
    ("method-wrapper", [
      "__add__ __contains__ __getitem__ __iter__ __len__ __mul__ __rmul__"])]),
  ("type", [
    ("NoneType", ["__text_signature__"]),
    ("builtin_function_or_method", [
      "__instancecheck__ __prepare__ __subclasscheck__ __subclasses__ mro"]),
    ("int", ["__basicsize__ __dictoffset__ __flags__ __itemsize__ __weakrefoffset__"]),
    ("mappingproxy", ["__dict__"]),
    ("method-wrapper", ["__call__ __or__ __ror__"]),
    ("method_descriptor", [
      "__dir__ __format__ __getstate__ __reduce__ __reduce_ex__ __sizeof__"]),
    ("str", ["__module__ __name__ __qualname__"]),
    ("tuple", ["__bases__ __mro__"]),
    ("type", ["__base__"]),
    ("wrapper_descriptor", [
      "__delattr__ __eq__ __ge__ __getattribute__ __gt__ __hash__ __init__ __le__ __lt__ __ne__",
      "__repr__ __setattr__ __str__"])]),
  ("wrapper_descriptor", [
    ("method-wrapper", ["__call__ __get__"]),
    ("str", ["__name__ __qualname__ __text_signature__"]),
    ("type", ["__objclass__"])])]

/-- The type of a member of the values of a type. -/
def memberType? (typeName name : String) : Option String :=
  let own := (ownMembers.find? fun t => t.1 = typeName).bind fun t => t.2.typeOf? name
  own.or (commonMembers.typeOf? name)

end SchemaGraph
