import SyntaxSurvey.Grammar.Production

/-! The productions of Python 3, without the ones for a whole text. Layout is part of the grammar:
line ends, indentation and its end are terminals. -/

namespace SyntaxSurvey.Grammar.Python

open Production (plain collapsing labelled)

def definitions : List Production :=
  [
    plain "decorator" [
      "AT! dotted_name LPAR! arguments RPAR! _NEWLINE!",
      "AT! dotted_name LPAR! [] RPAR! _NEWLINE!", "AT! dotted_name [] _NEWLINE!"],
    plain "decorators" ["_decorator_list"],
    plain "decorated" ["decorators classdef", "decorators funcdef", "decorators async_funcdef"],
    plain "async_funcdef" ["ASYNC! funcdef"],
    plain "funcdef" [
      "DEF! name LPAR! parameters RPAR! __ANON_0! test COLON! suite",
      "DEF! name LPAR! parameters RPAR! [] COLON! suite",
      "DEF! name LPAR! [] RPAR! __ANON_0! test COLON! suite",
      "DEF! name LPAR! [] RPAR! [] COLON! suite"],
    plain "parameters" [
      "paramvalue _more_parameters COMMA! SLASH _more_parameters COMMA! starparams",
      "paramvalue _more_parameters COMMA! SLASH _more_parameters COMMA! kwparams",
      "paramvalue _more_parameters COMMA! SLASH _more_parameters COMMA! []",
      "paramvalue _more_parameters COMMA! SLASH _more_parameters []",
      "paramvalue _more_parameters COMMA! SLASH COMMA! starparams",
      "paramvalue _more_parameters COMMA! SLASH COMMA! kwparams",
      "paramvalue _more_parameters COMMA! SLASH COMMA! []",
      "paramvalue _more_parameters COMMA! SLASH []",
      "paramvalue _more_parameters [] COMMA! starparams",
      "paramvalue _more_parameters [] COMMA! kwparams",
      "paramvalue _more_parameters [] COMMA! []", "paramvalue _more_parameters [] []",
      "paramvalue COMMA! SLASH _more_parameters COMMA! starparams",
      "paramvalue COMMA! SLASH _more_parameters COMMA! kwparams",
      "paramvalue COMMA! SLASH _more_parameters COMMA! []",
      "paramvalue COMMA! SLASH _more_parameters []", "paramvalue COMMA! SLASH COMMA! starparams",
      "paramvalue COMMA! SLASH COMMA! kwparams", "paramvalue COMMA! SLASH COMMA! []",
      "paramvalue COMMA! SLASH []", "paramvalue [] COMMA! starparams",
      "paramvalue [] COMMA! kwparams", "paramvalue [] COMMA! []", "paramvalue [] []",
      "starparams", "kwparams"],
    plain "starparams" ["starparam poststarparams", "starguard poststarparams"],
    plain "starparam" ["STAR! typedparam"],
    plain "starguard" ["STAR!"],
    plain "poststarparams" [
      "_more_parameters COMMA! kwparams", "_more_parameters []", "COMMA! kwparams", "[]"],
    plain "kwparams" ["__ANON_1! typedparam COMMA!", "__ANON_1! typedparam"],
    collapsing "paramvalue" ["typedparam EQUAL! test", "typedparam"],
    collapsing "typedparam" ["name COLON! test", "name"],
    plain "lambdef" ["LAMBDA! lambda_params COLON! test", "LAMBDA! [] COLON! test"],
    plain "lambdef_nocond" [
      "LAMBDA! lambda_params COLON! test_nocond", "LAMBDA! [] COLON! test_nocond"],
    plain "lambda_params" [
      "lambda_paramvalue _more_lambda_parameters COMMA! lambda_starparams",
      "lambda_paramvalue _more_lambda_parameters COMMA! lambda_kwparams",
      "lambda_paramvalue _more_lambda_parameters COMMA! []",
      "lambda_paramvalue _more_lambda_parameters []",
      "lambda_paramvalue COMMA! lambda_starparams", "lambda_paramvalue COMMA! lambda_kwparams",
      "lambda_paramvalue COMMA! []", "lambda_paramvalue []", "lambda_starparams",
      "lambda_kwparams"],
    collapsing "lambda_paramvalue" ["name EQUAL! test", "name"],
    plain "lambda_starparams" [
      "STAR! name _more_lambda_parameters COMMA! lambda_kwparams",
      "STAR! name _more_lambda_parameters COMMA! []", "STAR! name _more_lambda_parameters []",
      "STAR! name COMMA! lambda_kwparams", "STAR! name COMMA! []", "STAR! name []",
      "STAR! [] _more_lambda_parameters COMMA! lambda_kwparams",
      "STAR! [] _more_lambda_parameters COMMA! []", "STAR! [] _more_lambda_parameters []",
      "STAR! [] COMMA! lambda_kwparams", "STAR! [] COMMA! []", "STAR! [] []"],
    plain "lambda_kwparams" ["__ANON_1! name COMMA!", "__ANON_1! name"]
  ].flatten

def simpleStatements : List Production :=
  [
    collapsing "stmt" ["simple_stmt", "compound_stmt"],
    collapsing "simple_stmt" [
      "small_stmt _more_small_stmts SEMICOLON! _NEWLINE!",
      "small_stmt _more_small_stmts _NEWLINE!", "small_stmt SEMICOLON! _NEWLINE!",
      "small_stmt _NEWLINE!"],
    collapsing "small_stmt" [
      "expr_stmt", "assign_stmt", "del_stmt", "pass_stmt", "flow_stmt", "import_stmt",
      "global_stmt", "nonlocal_stmt", "assert_stmt"],
    plain "expr_stmt" ["testlist_star_expr"],
    plain "assign_stmt" ["annassign", "augassign", "assign"],
    plain "annassign" [
      "testlist_star_expr COLON! test EQUAL! test", "testlist_star_expr COLON! test []"],
    plain "assign" ["testlist_star_expr _assigned_values"],
    plain "augassign" [
      "testlist_star_expr augassign_op yield_expr", "testlist_star_expr augassign_op testlist"],
    plain "augassign_op" [
      "__ANON_2", "__ANON_3", "__ANON_4", "__ANON_5", "__ANON_6", "__ANON_7", "__ANON_8",
      "__ANON_9", "__ANON_10", "__ANON_11", "__ANON_12", "__ANON_13", "__ANON_14"],
    collapsing "testlist_star_expr" ["test_or_star_expr"],
    labelled "testlist_star_expr" "tuple" [
      "test_or_star_expr _more_items COMMA!", "test_or_star_expr _more_items",
      "test_or_star_expr COMMA!"],
    plain "del_stmt" ["DEL! exprlist"],
    plain "pass_stmt" ["PASS!"],
    collapsing "flow_stmt" [
      "break_stmt", "continue_stmt", "return_stmt", "raise_stmt", "yield_stmt"],
    plain "break_stmt" ["BREAK!"],
    plain "continue_stmt" ["CONTINUE!"],
    plain "return_stmt" ["RETURN! testlist", "RETURN! []"],
    plain "yield_stmt" ["yield_expr"],
    plain "raise_stmt" ["RAISE! test FROM! test", "RAISE! test []", "RAISE! [] []"],
    plain "import_stmt" ["import_name", "import_from"],
    plain "import_name" ["IMPORT! dotted_as_names"],
    plain "import_from" [
      "FROM! dots dotted_name IMPORT! STAR!",
      "FROM! dots dotted_name IMPORT! LPAR! import_as_names RPAR!",
      "FROM! dots dotted_name IMPORT! import_as_names", "FROM! dotted_name IMPORT! STAR!",
      "FROM! dotted_name IMPORT! LPAR! import_as_names RPAR!",
      "FROM! dotted_name IMPORT! import_as_names", "FROM! dots IMPORT! STAR!",
      "FROM! dots IMPORT! LPAR! import_as_names RPAR!", "FROM! dots IMPORT! import_as_names"],
    plain "dots" ["_dot_list"],
    plain "import_as_name" ["name AS! name", "name []"],
    plain "dotted_as_name" ["dotted_name AS! name", "dotted_name []"],
    plain "import_as_names" [
      "import_as_name _more_import_names COMMA!", "import_as_name _more_import_names",
      "import_as_name COMMA!", "import_as_name"],
    plain "dotted_as_names" ["dotted_as_name _more_dotted_names", "dotted_as_name"],
    plain "dotted_name" ["name _more_name_parts", "name"],
    plain "global_stmt" ["GLOBAL! name _more_names", "GLOBAL! name"],
    plain "nonlocal_stmt" ["NONLOCAL! name _more_names", "NONLOCAL! name"],
    plain "assert_stmt" ["ASSERT! test COMMA! test", "ASSERT! test []"]
  ].flatten

def compoundStatements : List Production :=
  [
    collapsing "compound_stmt" [
      "if_stmt", "while_stmt", "for_stmt", "try_stmt", "match_stmt", "with_stmt", "funcdef",
      "classdef", "decorated", "async_stmt"],
    plain "async_stmt" ["ASYNC! funcdef", "ASYNC! with_stmt", "ASYNC! for_stmt"],
    plain "if_stmt" [
      "IF! test COLON! suite elifs ELSE! COLON! suite", "IF! test COLON! suite elifs []"],
    plain "elifs" ["_elif_list", ""],
    plain "elif_" ["ELIF! test COLON! suite"],
    plain "while_stmt" [
      "WHILE! test COLON! suite ELSE! COLON! suite", "WHILE! test COLON! suite []"],
    plain "for_stmt" [
      "FOR! exprlist IN! testlist COLON! suite ELSE! COLON! suite",
      "FOR! exprlist IN! testlist COLON! suite []"],
    plain "try_stmt" [
      "TRY! COLON! suite except_clauses ELSE! COLON! suite finally",
      "TRY! COLON! suite except_clauses ELSE! COLON! suite []",
      "TRY! COLON! suite except_clauses [] finally", "TRY! COLON! suite except_clauses [] []"],
    labelled "try_stmt" "try_finally" ["TRY! COLON! suite finally"],
    plain "finally" ["FINALLY! COLON! suite"],
    plain "except_clauses" ["_except_list"],
    plain "except_clause" [
      "EXCEPT! test AS! name COLON! suite", "EXCEPT! test [] COLON! suite",
      "EXCEPT! [] [] COLON! suite"],
    plain "with_stmt" ["WITH! with_items COLON! suite"],
    plain "with_items" ["with_item _more_with_items", "with_item"],
    plain "with_item" ["test AS! name", "test []"],
    plain "match_stmt" ["MATCH! test COLON! _NEWLINE! _INDENT! _case_list _DEDENT!"],
    plain "case" ["CASE! pattern IF! test COLON! suite", "CASE! pattern [] COLON! suite"]
  ].flatten

def casePatterns : List Production :=
  [
    labelled "pattern" "sequence_pattern" ["sequence_item_pattern COMMA! _sequence_pattern"],
    collapsing "pattern" ["as_pattern"],
    collapsing "as_pattern" ["or_pattern AS! NAME", "or_pattern"],
    collapsing "or_pattern" ["closed_pattern _more_alternatives", "closed_pattern"],
    collapsing "closed_pattern" ["literal_pattern"],
    labelled "closed_pattern" "capture_pattern" ["NAME"],
    labelled "closed_pattern" "any_pattern" ["UNDERSCORE!"],
    collapsing "closed_pattern" ["attr_pattern", "LPAR! as_pattern RPAR!"],
    labelled "closed_pattern" "sequence_pattern" [
      "LSQB! _sequence_pattern RSQB!",
      "LPAR! sequence_item_pattern COMMA! _sequence_pattern RPAR!", "LPAR! RPAR!"],
    labelled "closed_pattern" "mapping_pattern" [
      "LBRACE! mapping_item_pattern _more_mapping_items COMMA! RBRACE!",
      "LBRACE! mapping_item_pattern _more_mapping_items RBRACE!",
      "LBRACE! mapping_item_pattern COMMA! RBRACE!", "LBRACE! mapping_item_pattern RBRACE!",
      "LBRACE! RBRACE!"],
    labelled "closed_pattern" "mapping_star_pattern" [
      "LBRACE! mapping_item_pattern _more_mapping_items COMMA! __ANON_1! NAME COMMA! RBRACE!",
      "LBRACE! mapping_item_pattern _more_mapping_items COMMA! __ANON_1! NAME RBRACE!",
      "LBRACE! mapping_item_pattern COMMA! __ANON_1! NAME COMMA! RBRACE!",
      "LBRACE! mapping_item_pattern COMMA! __ANON_1! NAME RBRACE!",
      "LBRACE! __ANON_1! NAME COMMA! RBRACE!", "LBRACE! __ANON_1! NAME RBRACE!"],
    collapsing "closed_pattern" ["class_pattern"],
    plain "literal_pattern" ["inner_literal_pattern"],
    labelled "inner_literal_pattern" "const_none" ["NONE!"],
    labelled "inner_literal_pattern" "const_true" ["TRUE!"],
    labelled "inner_literal_pattern" "const_false" ["FALSE!"],
    labelled "inner_literal_pattern" "string" ["STRING"],
    collapsing "inner_literal_pattern" ["number"],
    labelled "attr_pattern" "value" ["NAME _attributes"],
    labelled "name_or_attr_pattern" "value" ["NAME _attributes", "NAME"],
    plain "mapping_item_pattern" [
      "literal_pattern COLON! as_pattern", "attr_pattern COLON! as_pattern"],
    plain "_sequence_pattern" [
      "sequence_item_pattern _more_sequence_items COMMA!",
      "sequence_item_pattern _more_sequence_items", "sequence_item_pattern COMMA!",
      "sequence_item_pattern", ""],
    collapsing "sequence_item_pattern" ["as_pattern"],
    labelled "sequence_item_pattern" "star_pattern" ["STAR! NAME"],
    plain "class_pattern" [
      "name_or_attr_pattern LPAR! arguments_pattern COMMA! RPAR!",
      "name_or_attr_pattern LPAR! arguments_pattern RPAR!", "name_or_attr_pattern LPAR! [] RPAR!"],
    plain "arguments_pattern" ["pos_arg_pattern COMMA! keyws_arg_pattern", "pos_arg_pattern []"],
    labelled "arguments_pattern" "no_pos_arguments" ["keyws_arg_pattern"],
    plain "pos_arg_pattern" ["as_pattern _more_positional_patterns", "as_pattern"],
    plain "keyws_arg_pattern" ["keyw_arg_pattern _more_keyword_patterns", "keyw_arg_pattern"],
    plain "keyw_arg_pattern" ["NAME EQUAL! as_pattern"]
  ].flatten

def operators : List Production :=
  [
    plain "suite" ["simple_stmt", "_NEWLINE! _INDENT! _stmt_list _DEDENT!"],
    collapsing "test" ["or_test IF! or_test ELSE! test", "or_test", "lambdef", "assign_expr"],
    plain "assign_expr" ["name __ANON_15! test"],
    collapsing "test_nocond" ["or_test", "lambdef_nocond"],
    collapsing "or_test" ["and_test _or_operands", "and_test"],
    collapsing "and_test" ["not_test_ _and_operands", "not_test_"],
    labelled "not_test_" "not_test" ["NOT! not_test_"],
    collapsing "not_test_" ["comparison"],
    collapsing "comparison" ["expr _comparisons", "expr"],
    plain "star_expr" ["STAR! expr"],
    collapsing "expr" ["or_expr"],
    collapsing "or_expr" ["xor_expr _bit_or_operands", "xor_expr"],
    collapsing "xor_expr" ["and_expr _bit_xor_operands", "and_expr"],
    collapsing "and_expr" ["shift_expr _bit_and_operands", "shift_expr"],
    collapsing "shift_expr" ["arith_expr _shift_operands", "arith_expr"],
    collapsing "arith_expr" ["term _sum_operands", "term"],
    collapsing "term" ["factor _product_operands", "factor"],
    collapsing "factor" ["_unary_op factor", "power"],
    plain "_unary_op" ["PLUS", "MINUS", "TILDE"],
    plain "_add_op" ["PLUS", "MINUS"],
    plain "_shift_op" ["__ANON_16", "__ANON_17"],
    plain "_mul_op" ["STAR", "AT", "SLASH", "PERCENT", "__ANON_18"],
    plain "comp_op" [
      "LESSTHAN", "MORETHAN", "__ANON_19", "__ANON_20", "__ANON_21", "__ANON_22", "__ANON_23",
      "IN", "NOT IN", "IS", "IS NOT"]
  ].flatten

def atoms : List Production :=
  [
    collapsing "power" ["await_expr __ANON_1! factor", "await_expr"],
    collapsing "await_expr" ["AWAIT atom_expr", "atom_expr"],
    labelled "atom_expr" "funccall" [
      "atom_expr LPAR! arguments RPAR!", "atom_expr LPAR! [] RPAR!"],
    labelled "atom_expr" "getitem" ["atom_expr LSQB! subscriptlist RSQB!"],
    labelled "atom_expr" "getattr" ["atom_expr DOT! name"],
    collapsing "atom_expr" ["atom"],
    collapsing "atom" ["LPAR! yield_expr RPAR!"],
    labelled "atom" "tuple" ["LPAR! _tuple_inner RPAR!", "LPAR! RPAR!"],
    labelled "atom" "tuple_comprehension" ["LPAR! comprehension_of_items RPAR!"],
    labelled "atom" "list" ["LSQB! _exprlist RSQB!", "LSQB! RSQB!"],
    labelled "atom" "list_comprehension" ["LSQB! comprehension_of_items RSQB!"],
    labelled "atom" "dict" ["LBRACE! _dict_exprlist RBRACE!", "LBRACE! RBRACE!"],
    labelled "atom" "dict_comprehension" ["LBRACE! comprehension_of_pairs RBRACE!"],
    labelled "atom" "set" ["LBRACE! _exprlist RBRACE!"],
    labelled "atom" "set_comprehension" ["LBRACE! comprehension_of_tests RBRACE!"],
    labelled "atom" "var" ["name"],
    collapsing "atom" ["number", "string_concat", "LPAR! test RPAR!"],
    labelled "atom" "ellipsis" ["__ANON_24!"],
    labelled "atom" "const_none" ["NONE!"],
    labelled "atom" "const_true" ["TRUE!"],
    labelled "atom" "const_false" ["FALSE!"],
    collapsing "string_concat" ["_string_list"],
    plain "_tuple_inner" [
      "test_or_star_expr _more_items COMMA!", "test_or_star_expr _more_items",
      "test_or_star_expr COMMA!"],
    collapsing "test_or_star_expr" ["test", "star_expr"],
    collapsing "subscriptlist" ["subscript"],
    labelled "subscriptlist" "subscript_tuple" [
      "subscript _more_subscripts COMMA!", "subscript _more_subscripts", "subscript COMMA!"],
    collapsing "subscript" ["test"],
    labelled "subscript" "slice" [
      "test COLON! test sliceop", "test COLON! test []", "test COLON! [] sliceop",
      "test COLON! [] []", "[] COLON! test sliceop", "[] COLON! test []", "[] COLON! [] sliceop",
      "[] COLON! [] []"],
    plain "sliceop" ["COLON! test", "COLON! []"],
    collapsing "exprlist" [
      "expr", "star_expr", "expr _more_exprs COMMA!", "expr _more_exprs", "expr COMMA!",
      "star_expr _more_exprs COMMA!", "star_expr _more_exprs", "star_expr COMMA!"],
    collapsing "testlist" ["test", "testlist_tuple"],
    plain "testlist_tuple" ["test _more_tests COMMA!", "test _more_tests", "test COMMA!"],
    plain "_dict_exprlist" [
      "key_value _more_dict_items COMMA!", "key_value _more_dict_items", "key_value COMMA!",
      "key_value", "__ANON_1! expr _more_dict_items COMMA!", "__ANON_1! expr _more_dict_items",
      "__ANON_1! expr COMMA!", "__ANON_1! expr"],
    plain "key_value" ["test COLON! test"],
    plain "_exprlist" [
      "test_or_star_expr _more_items COMMA!", "test_or_star_expr _more_items",
      "test_or_star_expr COMMA!", "test_or_star_expr"]
  ].flatten

def arguments : List Production :=
  [
    plain "classdef" [
      "CLASS! name LPAR! arguments RPAR! COLON! suite", "CLASS! name LPAR! [] RPAR! COLON! suite",
      "CLASS! name [] COLON! suite"],
    plain "arguments" [
      "argvalue _more_arguments COMMA! starargs", "argvalue _more_arguments COMMA! kwargs",
      "argvalue _more_arguments COMMA! []", "argvalue _more_arguments",
      "argvalue COMMA! starargs", "argvalue COMMA! kwargs", "argvalue COMMA! []", "argvalue",
      "starargs", "kwargs", "comprehension_of_tests"],
    plain "starargs" [
      "stararg _more_starargs _more_arguments COMMA! kwargs",
      "stararg _more_starargs _more_arguments []", "stararg _more_starargs COMMA! kwargs",
      "stararg _more_starargs []", "stararg _more_arguments COMMA! kwargs",
      "stararg _more_arguments []", "stararg COMMA! kwargs", "stararg []"],
    plain "stararg" ["STAR! test"],
    plain "kwargs" ["__ANON_1! test _more_arguments", "__ANON_1! test"],
    collapsing "argvalue" ["test EQUAL! test", "test"],
    plain "comp_fors" ["_comp_for_list"],
    plain "comp_for" ["ASYNC FOR! exprlist IN! or_test", "[] FOR! exprlist IN! or_test"],
    collapsing "comp_if" ["IF! test_nocond"],
    plain "yield_expr" ["YIELD! testlist", "YIELD! []"],
    labelled "yield_expr" "yield_from" ["YIELD! FROM! test"],
    plain "number" [
      "DEC_NUMBER", "HEX_NUMBER", "BIN_NUMBER", "OCT_NUMBER", "FLOAT_NUMBER", "IMAG_NUMBER"],
    plain "string" ["STRING", "LONG_STRING"],
    plain "name" ["NAME", "MATCH", "CASE"],
    labelled "comprehension_of_items" "comprehension" [
      "test_or_star_expr comp_fors comp_if", "test_or_star_expr comp_fors []"],
    labelled "comprehension_of_pairs" "comprehension" [
      "key_value comp_fors comp_if", "key_value comp_fors []"],
    labelled "comprehension_of_tests" "comprehension" [
      "test comp_fors comp_if", "test comp_fors []"]
  ].flatten

/-- Repetitions. Their nodes are transparent, so the items stand where the repetition does. -/
def repetitions : List Production :=
  [
    plain "_decorator_list" ["decorator", "_decorator_list decorator"],
    plain "_more_parameters" ["COMMA! paramvalue", "_more_parameters COMMA! paramvalue"],
    plain "_more_lambda_parameters" [
      "COMMA! lambda_paramvalue", "_more_lambda_parameters COMMA! lambda_paramvalue"],
    plain "_more_small_stmts" ["SEMICOLON! small_stmt", "_more_small_stmts SEMICOLON! small_stmt"],
    plain "_assigned_values" [
      "EQUAL! yield_expr", "EQUAL! testlist_star_expr", "_assigned_values EQUAL! yield_expr",
      "_assigned_values EQUAL! testlist_star_expr"],
    plain "_more_items" ["COMMA! test_or_star_expr", "_more_items COMMA! test_or_star_expr"],
    plain "_dot_list" ["DOT", "_dot_list DOT"],
    plain "_more_import_names" [
      "COMMA! import_as_name", "_more_import_names COMMA! import_as_name"],
    plain "_more_dotted_names" [
      "COMMA! dotted_as_name", "_more_dotted_names COMMA! dotted_as_name"],
    plain "_more_name_parts" ["DOT! name", "_more_name_parts DOT! name"],
    plain "_more_names" ["COMMA! name", "_more_names COMMA! name"],
    plain "_elif_list" ["elif_", "_elif_list elif_"],
    plain "_except_list" ["except_clause", "_except_list except_clause"],
    plain "_more_with_items" ["COMMA! with_item", "_more_with_items COMMA! with_item"],
    plain "_case_list" ["case", "_case_list case"],
    plain "_more_alternatives" ["VBAR! closed_pattern", "_more_alternatives VBAR! closed_pattern"],
    plain "_more_mapping_items" [
      "COMMA! mapping_item_pattern", "_more_mapping_items COMMA! mapping_item_pattern"],
    plain "_attributes" ["DOT! NAME", "_attributes DOT! NAME"],
    plain "_more_sequence_items" [
      "COMMA! sequence_item_pattern", "_more_sequence_items COMMA! sequence_item_pattern"],
    plain "_more_positional_patterns" [
      "COMMA! as_pattern", "_more_positional_patterns COMMA! as_pattern"],
    plain "_more_keyword_patterns" [
      "COMMA! keyw_arg_pattern", "_more_keyword_patterns COMMA! keyw_arg_pattern"],
    plain "_stmt_list" ["stmt", "_stmt_list stmt"],
    plain "_or_operands" ["OR! and_test", "_or_operands OR! and_test"],
    plain "_and_operands" ["AND! not_test_", "_and_operands AND! not_test_"],
    plain "_comparisons" ["comp_op expr", "_comparisons comp_op expr"],
    plain "_bit_or_operands" ["VBAR! xor_expr", "_bit_or_operands VBAR! xor_expr"],
    plain "_bit_xor_operands" ["CIRCUMFLEX! and_expr", "_bit_xor_operands CIRCUMFLEX! and_expr"],
    plain "_bit_and_operands" ["AMPERSAND! shift_expr", "_bit_and_operands AMPERSAND! shift_expr"],
    plain "_shift_operands" ["_shift_op arith_expr", "_shift_operands _shift_op arith_expr"],
    plain "_sum_operands" ["_add_op term", "_sum_operands _add_op term"],
    plain "_product_operands" ["_mul_op factor", "_product_operands _mul_op factor"],
    plain "_string_list" ["string", "_string_list string"],
    plain "_more_subscripts" ["COMMA! subscript", "_more_subscripts COMMA! subscript"],
    plain "_more_exprs" [
      "COMMA! expr", "COMMA! star_expr", "_more_exprs COMMA! expr",
      "_more_exprs COMMA! star_expr"],
    plain "_more_tests" ["COMMA! test", "_more_tests COMMA! test"],
    plain "_more_dict_items" [
      "COMMA! key_value", "COMMA! __ANON_1! expr", "_more_dict_items COMMA! key_value",
      "_more_dict_items COMMA! __ANON_1! expr"],
    plain "_more_arguments" ["COMMA! argvalue", "_more_arguments COMMA! argvalue"],
    plain "_more_starargs" ["COMMA! stararg", "_more_starargs COMMA! stararg"],
    plain "_comp_for_list" ["comp_for", "_comp_for_list comp_for"]
  ].flatten

def productions : List Production :=
  definitions ++ simpleStatements ++ compoundStatements ++ casePatterns ++ operators ++ atoms
    ++ arguments ++ repetitions

end SyntaxSurvey.Grammar.Python
