import Mathlib.Data.List.Nodup

namespace FakeLibc.GlesTables

/-- The functions that `libGLESv2` exports, for each of which it has a pointer. -/
inductive Gl
  | glBlendColor | glClearColor | glClearDepthf | glDepthRangef | glLineWidth | glPolygonOffset
  | glSampleCoverage | glTexParameterf | glUniform1f | glUniform2f | glUniform3f | glUniform4f
  | glVertexAttrib1f | glVertexAttrib2f | glVertexAttrib3f | glVertexAttrib4f
  | glEGLImageTargetTexture2DOES | glActiveTexture | glAttachShader | glBindAttribLocation
  | glBindBuffer | glBindFramebuffer | glBindRenderbuffer | glBindTexture | glBlendEquation
  | glBlendEquationSeparate | glBlendFunc | glBlendFuncSeparate | glBufferData | glBufferSubData
  | glCheckFramebufferStatus | glClear | glClearStencil | glColorMask | glCompileShader
  | glCompressedTexImage2D | glCompressedTexSubImage2D | glCopyTexImage2D | glCopyTexSubImage2D
  | glCreateProgram | glCreateShader | glCullFace | glDeleteBuffers | glDeleteFramebuffers
  | glDeleteProgram | glDeleteRenderbuffers | glDeleteShader | glDeleteTextures | glDepthFunc
  | glDepthMask | glDetachShader | glDisable | glDisableVertexAttribArray | glDrawArrays
  | glDrawElements | glEnable | glEnableVertexAttribArray | glFinish | glFlush
  | glFramebufferRenderbuffer | glFramebufferTexture2D | glFrontFace | glGenBuffers
  | glGenerateMipmap | glGenFramebuffers | glGenRenderbuffers | glGenTextures | glGetActiveAttrib
  | glGetActiveUniform | glGetAttachedShaders | glGetAttribLocation | glGetBooleanv
  | glGetBufferParameteriv | glGetError | glGetFloatv | glGetFramebufferAttachmentParameteriv
  | glGetIntegerv | glGetProgramiv | glGetProgramInfoLog | glGetRenderbufferParameteriv
  | glGetShaderiv | glGetShaderInfoLog | glGetShaderPrecisionFormat | glGetShaderSource
  | glGetString | glGetTexParameterfv | glGetTexParameteriv | glGetUniformfv | glGetUniformiv
  | glGetUniformLocation | glGetVertexAttribfv | glGetVertexAttribiv | glGetVertexAttribPointerv
  | glHint | glIsBuffer | glIsEnabled | glIsFramebuffer | glIsProgram | glIsRenderbuffer
  | glIsShader | glIsTexture | glLinkProgram | glPixelStorei | glReadPixels
  | glReleaseShaderCompiler | glRenderbufferStorage | glScissor | glShaderBinary | glShaderSource
  | glStencilFunc | glStencilFuncSeparate | glStencilMask | glStencilMaskSeparate | glStencilOp
  | glStencilOpSeparate | glTexImage2D | glTexParameterfv | glTexParameteri | glTexParameteriv
  | glTexSubImage2D | glUniform1fv | glUniform1i | glUniform1iv | glUniform2fv | glUniform2i
  | glUniform2iv | glUniform3fv | glUniform3i | glUniform3iv | glUniform4fv | glUniform4i
  | glUniform4iv | glUniformMatrix2fv | glUniformMatrix3fv | glUniformMatrix4fv | glUseProgram
  | glValidateProgram | glVertexAttrib1fv | glVertexAttrib2fv | glVertexAttrib3fv
  | glVertexAttrib4fv | glVertexAttribPointer | glViewport
deriving DecidableEq

/-- The constructor loads these pointers, in this order. -/
def gles2Load : List Gl :=
  [.glBlendColor, .glClearColor, .glClearDepthf, .glDepthRangef, .glLineWidth, .glPolygonOffset,
  .glSampleCoverage, .glTexParameterf, .glUniform1f, .glUniform2f, .glUniform3f, .glUniform4f,
  .glVertexAttrib1f, .glVertexAttrib2f, .glVertexAttrib3f, .glVertexAttrib4f,
  .glEGLImageTargetTexture2DOES, .glActiveTexture, .glAttachShader, .glBindAttribLocation,
  .glBindBuffer, .glBindFramebuffer, .glBindRenderbuffer, .glBindTexture, .glBlendEquation,
  .glBlendEquationSeparate, .glBlendFunc, .glBlendFuncSeparate, .glBufferData, .glBufferSubData,
  .glCheckFramebufferStatus, .glClear, .glClearStencil, .glColorMask, .glCompileShader,
  .glCompressedTexImage2D, .glCompressedTexSubImage2D, .glCopyTexImage2D, .glCopyTexSubImage2D,
  .glCreateProgram, .glCreateShader, .glCullFace, .glDeleteBuffers, .glDeleteFramebuffers,
  .glDeleteProgram, .glDeleteRenderbuffers, .glDeleteShader, .glDeleteTextures, .glDepthFunc,
  .glDepthMask, .glDetachShader, .glDisable, .glDisableVertexAttribArray, .glDrawArrays,
  .glDrawElements, .glEnable, .glEnableVertexAttribArray, .glFinish, .glFlush,
  .glFramebufferRenderbuffer, .glFramebufferTexture2D, .glFrontFace, .glGenBuffers,
  .glGenerateMipmap, .glGenFramebuffers, .glGenRenderbuffers, .glGenTextures, .glGetActiveAttrib,
  .glGetActiveUniform, .glGetAttachedShaders, .glGetAttribLocation, .glGetBooleanv,
  .glGetBufferParameteriv, .glGetError, .glGetFloatv, .glGetFramebufferAttachmentParameteriv,
  .glGetIntegerv, .glGetProgramiv, .glGetProgramInfoLog, .glGetRenderbufferParameteriv,
  .glGetShaderiv, .glGetShaderInfoLog, .glGetShaderPrecisionFormat, .glGetShaderSource,
  .glGetString, .glGetTexParameterfv, .glGetTexParameteriv, .glGetUniformfv, .glGetUniformiv,
  .glGetUniformLocation, .glGetVertexAttribfv, .glGetVertexAttribiv, .glGetVertexAttribPointerv,
  .glHint, .glIsBuffer, .glIsEnabled, .glIsFramebuffer, .glIsProgram, .glIsRenderbuffer,
  .glIsShader, .glIsTexture, .glLinkProgram, .glPixelStorei, .glReleaseShaderCompiler,
  .glRenderbufferStorage, .glScissor, .glShaderBinary, .glShaderSource, .glStencilFunc,
  .glStencilFuncSeparate, .glStencilMask, .glStencilMaskSeparate, .glStencilOp,
  .glStencilOpSeparate, .glTexImage2D, .glTexParameterfv, .glTexParameteri, .glTexParameteriv,
  .glTexSubImage2D, .glUniform1fv, .glUniform1i, .glUniform1iv, .glUniform2fv, .glUniform2i,
  .glUniform2iv, .glUniform3fv, .glUniform3i, .glUniform3iv, .glUniform4fv, .glUniform4i,
  .glUniform4iv, .glUniformMatrix2fv, .glUniformMatrix3fv, .glUniformMatrix4fv, .glUseProgram,
  .glValidateProgram, .glVertexAttrib1fv, .glVertexAttrib2fv, .glVertexAttrib3fv,
  .glVertexAttrib4fv, .glVertexAttribPointer, .glViewport]

/-- These are indirect functions, and the wrappers are theirs. -/
def gles2Idload : List Gl :=
  [.glActiveTexture, .glAttachShader, .glBindAttribLocation, .glBindBuffer, .glBindFramebuffer,
  .glBindRenderbuffer, .glBindTexture, .glBlendEquation, .glBlendEquationSeparate, .glBlendFunc,
  .glBlendFuncSeparate, .glBufferData, .glBufferSubData, .glCheckFramebufferStatus, .glClear,
  .glClearStencil, .glColorMask, .glCompileShader, .glCompressedTexImage2D,
  .glCompressedTexSubImage2D, .glCopyTexImage2D, .glCopyTexSubImage2D, .glCreateProgram,
  .glCreateShader, .glCullFace, .glDeleteBuffers, .glDeleteFramebuffers, .glDeleteProgram,
  .glDeleteRenderbuffers, .glDeleteShader, .glDeleteTextures, .glDepthFunc, .glDepthMask,
  .glDetachShader, .glDisable, .glDisableVertexAttribArray, .glDrawArrays, .glDrawElements,
  .glEnable, .glEnableVertexAttribArray, .glFinish, .glFlush, .glFramebufferRenderbuffer,
  .glFramebufferTexture2D, .glFrontFace, .glGenBuffers, .glGenerateMipmap, .glGenFramebuffers,
  .glGenRenderbuffers, .glGenTextures, .glGetActiveAttrib, .glGetActiveUniform,
  .glGetAttachedShaders, .glGetAttribLocation, .glGetBooleanv, .glGetBufferParameteriv,
  .glGetError, .glGetFloatv, .glGetFramebufferAttachmentParameteriv, .glGetIntegerv,
  .glGetProgramiv, .glGetProgramInfoLog, .glGetRenderbufferParameteriv, .glGetShaderiv,
  .glGetShaderInfoLog, .glGetShaderPrecisionFormat, .glGetShaderSource, .glGetString,
  .glGetTexParameterfv, .glGetTexParameteriv, .glGetUniformfv, .glGetUniformiv,
  .glGetUniformLocation, .glGetVertexAttribfv, .glGetVertexAttribiv, .glGetVertexAttribPointerv,
  .glHint, .glIsBuffer, .glIsEnabled, .glIsFramebuffer, .glIsProgram, .glIsRenderbuffer,
  .glIsShader, .glIsTexture, .glLinkProgram, .glPixelStorei, .glReadPixels,
  .glReleaseShaderCompiler, .glRenderbufferStorage, .glScissor, .glShaderBinary, .glShaderSource,
  .glStencilFunc, .glStencilFuncSeparate, .glStencilMask, .glStencilMaskSeparate, .glStencilOp,
  .glStencilOpSeparate, .glTexImage2D, .glTexParameterfv, .glTexParameteri, .glTexParameteriv,
  .glTexSubImage2D, .glUniform1fv, .glUniform1i, .glUniform1iv, .glUniform2fv, .glUniform2i,
  .glUniform2iv, .glUniform3fv, .glUniform3i, .glUniform3iv, .glUniform4fv, .glUniform4i,
  .glUniform4iv, .glUniformMatrix2fv, .glUniformMatrix3fv, .glUniformMatrix4fv, .glUseProgram,
  .glValidateProgram, .glVertexAttrib1fv, .glVertexAttrib2fv, .glVertexAttrib3fv,
  .glVertexAttrib4fv, .glVertexAttribPointer, .glViewport]

/-- An argument that a function passes on: one of its parameters, or the driver's
handle in the image that it points to. -/
inductive Arg
  | param (name : String)
  | eglImage (name : String)

structure Function where
  params : List String
  callee : Gl
  args : List Arg

def forward (params : List String) (callee : Gl) (args : List String) : Function :=
  ⟨params, callee, args.map .param⟩

/-- The body of the wrapper of each indirect function, and of the others. -/
def function : Gl → Function
  | .glBlendColor =>
    forward ["red", "green", "blue", "alpha"] .glBlendColor ["red", "green", "blue", "alpha"]
  | .glClearColor =>
    forward ["red", "green", "blue", "alpha"] .glClearColor ["red", "green", "blue", "alpha"]
  | .glClearDepthf => forward ["depth"] .glClearDepthf ["depth"]
  | .glDepthRangef => forward ["zNear", "zFar"] .glDepthRangef ["zNear", "zFar"]
  | .glLineWidth => forward ["width"] .glLineWidth ["width"]
  | .glPolygonOffset => forward ["factor", "units"] .glPolygonOffset ["factor", "units"]
  | .glSampleCoverage => forward ["value", "invert"] .glSampleCoverage ["value", "invert"]
  | .glTexParameterf =>
    forward ["target", "pname", "param"] .glTexParameterf ["target", "pname", "param"]
  | .glUniform1f => forward ["location", "x"] .glUniform1f ["location", "x"]
  | .glUniform2f => forward ["location", "x", "y"] .glUniform2f ["location", "x", "y"]
  | .glUniform3f => forward ["location", "x", "y", "z"] .glUniform3f ["location", "x", "y", "z"]
  | .glUniform4f =>
    forward ["location", "x", "y", "z", "w"] .glUniform4f ["location", "x", "y", "z", "w"]
  | .glVertexAttrib1f => forward ["indx", "x"] .glVertexAttrib1f ["indx", "x"]
  | .glVertexAttrib2f => forward ["indx", "x", "y"] .glVertexAttrib2f ["indx", "x", "y"]
  | .glVertexAttrib3f => forward ["indx", "x", "y", "z"] .glVertexAttrib3f ["indx", "x", "y", "z"]
  | .glVertexAttrib4f =>
    forward ["indx", "x", "y", "z", "w"] .glVertexAttrib4f ["indx", "x", "y", "z", "w"]
  | .glEGLImageTargetTexture2DOES =>
    ⟨["target", "image"], .glEGLImageTargetTexture2DOES, [.param "target", .eglImage "image"]⟩
  | .glActiveTexture => forward ["texture"] .glActiveTexture ["texture"]
  | .glAttachShader => forward ["program", "shader"] .glAttachShader ["program", "shader"]
  | .glBindAttribLocation =>
    forward ["program", "index", "name"] .glBindAttribLocation ["program", "index", "name"]
  | .glBindBuffer => forward ["target", "buffer"] .glBindBuffer ["target", "buffer"]
  | .glBindFramebuffer =>
    forward ["target", "framebuffer"] .glBindFramebuffer ["target", "framebuffer"]
  | .glBindRenderbuffer =>
    forward ["target", "framebuffer"] .glBindRenderbuffer ["target", "framebuffer"]
  | .glBindTexture => forward ["target", "texture"] .glBindTexture ["target", "texture"]
  | .glBlendEquation => forward ["mode"] .glBlendEquation ["mode"]
  | .glBlendEquationSeparate =>
    forward ["modeRGB", "modeAlpha"] .glBlendEquationSeparate ["modeRGB", "modeAlpha"]
  | .glBlendFunc => forward ["sfactor", "dfactor"] .glBlendFunc ["sfactor", "dfactor"]
  | .glBlendFuncSeparate =>
    forward ["srcRGB", "dstRGB", "srcAlpha", "dstAlpha"] .glBlendFuncSeparate
      ["srcRGB", "dstRGB", "srcAlpha", "dstAlpha"]
  | .glBufferData =>
    forward ["target", "size", "data", "usage"] .glBufferData ["target", "size", "data", "usage"]
  | .glBufferSubData =>
    forward ["target", "offset", "size", "data"] .glBufferSubData
      ["target", "offset", "size", "data"]
  | .glCheckFramebufferStatus => forward ["target"] .glCheckFramebufferStatus ["target"]
  | .glClear => forward ["mask"] .glClear ["mask"]
  | .glClearStencil => forward ["s"] .glClearStencil ["s"]
  | .glColorMask =>
    forward ["red", "green", "blue", "alpha"] .glColorMask ["red", "green", "blue", "alpha"]
  | .glCompileShader => forward ["shader"] .glCompileShader ["shader"]
  | .glCompressedTexImage2D =>
    forward
      ["target", "level", "internalformat", "width", "height", "border", "imageSize", "data"]
      .glCompressedTexImage2D
      ["target", "level", "internalformat", "width", "height", "border", "imageSize", "data"]
  | .glCompressedTexSubImage2D =>
    forward
      ["target", "level", "xoffset", "yoffset", "width", "height", "format", "imageSize", "data"]
      .glCompressedTexSubImage2D
      ["target", "level", "xoffset", "yoffset", "width", "height", "format", "imageSize", "data"]
  | .glCopyTexImage2D =>
    forward
      ["target", "level", "internalformat", "x", "y", "width", "height", "border"]
      .glCopyTexImage2D
      ["target", "level", "internalformat", "x", "y", "width", "height", "border"]
  | .glCopyTexSubImage2D =>
    forward
      ["target", "level", "xoffset", "yoffset", "x", "y", "width", "height"]
      .glCopyTexSubImage2D
      ["target", "level", "xoffset", "yoffset", "x", "y", "width", "height"]
  | .glCreateProgram => forward [] .glCreateProgram []
  | .glCreateShader => forward ["type"] .glCreateShader ["type"]
  | .glCullFace => forward ["mode"] .glCullFace ["mode"]
  | .glDeleteBuffers => forward ["n", "buffers"] .glDeleteBuffers ["n", "buffers"]
  | .glDeleteFramebuffers => forward ["n", "buffers"] .glDeleteFramebuffers ["n", "buffers"]
  | .glDeleteProgram => forward ["program"] .glDeleteProgram ["program"]
  | .glDeleteRenderbuffers =>
    forward ["n", "renderbuffers"] .glDeleteRenderbuffers ["n", "renderbuffers"]
  | .glDeleteShader => forward ["shader"] .glDeleteShader ["shader"]
  | .glDeleteTextures => forward ["n", "textures"] .glDeleteTextures ["n", "textures"]
  | .glDepthFunc => forward ["func"] .glDepthFunc ["func"]
  | .glDepthMask => forward ["flag"] .glDepthMask ["flag"]
  | .glDetachShader => forward ["program", "shader"] .glDetachShader ["program", "shader"]
  | .glDisable => forward ["cap"] .glDisable ["cap"]
  | .glDisableVertexAttribArray => forward ["index"] .glDisableVertexAttribArray ["index"]
  | .glDrawArrays => forward ["mode", "first", "count"] .glDrawArrays ["mode", "first", "count"]
  | .glDrawElements =>
    forward ["mode", "count", "type", "indices"] .glDrawElements
      ["mode", "count", "type", "indices"]
  | .glEnable => forward ["cap"] .glEnable ["cap"]
  | .glEnableVertexAttribArray => forward ["index"] .glEnableVertexAttribArray ["index"]
  | .glFinish => forward [] .glFinish []
  | .glFlush => forward [] .glFlush []
  | .glFramebufferRenderbuffer =>
    forward
      ["target", "attachment", "renderbuffertarget", "renderbuffer"]
      .glFramebufferRenderbuffer
      ["target", "attachment", "renderbuffertarget", "renderbuffer"]
  | .glFramebufferTexture2D =>
    forward ["target", "attachment", "textarget", "texture", "level"] .glFramebufferTexture2D
      ["target", "attachment", "textarget", "texture", "level"]
  | .glFrontFace => forward ["mode"] .glFrontFace ["mode"]
  | .glGenBuffers => forward ["n", "buffers"] .glGenBuffers ["n", "buffers"]
  | .glGenerateMipmap => forward ["target"] .glGenerateMipmap ["target"]
  | .glGenFramebuffers => forward ["n", "framebuffers"] .glGenFramebuffers ["n", "framebuffers"]
  | .glGenRenderbuffers =>
    forward ["n", "renderbuffers"] .glGenRenderbuffers ["n", "renderbuffers"]
  | .glGenTextures => forward ["n", "textures"] .glGenTextures ["n", "textures"]
  | .glGetActiveAttrib =>
    forward ["program", "index", "bufsize", "length", "size", "type", "name"] .glGetActiveAttrib
      ["program", "index", "bufsize", "length", "size", "type", "name"]
  | .glGetActiveUniform =>
    forward ["program", "index", "bufsize", "length", "size", "type", "name"] .glGetActiveUniform
      ["program", "index", "bufsize", "length", "size", "type", "name"]
  | .glGetAttachedShaders =>
    forward ["program", "maxcount", "count", "shaders"] .glGetAttachedShaders
      ["program", "maxcount", "count", "shaders"]
  | .glGetAttribLocation => forward ["program", "name"] .glGetAttribLocation ["program", "name"]
  | .glGetBooleanv => forward ["pname", "params"] .glGetBooleanv ["pname", "params"]
  | .glGetBufferParameteriv =>
    forward ["target", "pname", "params"] .glGetBufferParameteriv ["target", "pname", "params"]
  | .glGetError => forward [] .glGetError []
  | .glGetFloatv => forward ["pname", "params"] .glGetFloatv ["pname", "params"]
  | .glGetFramebufferAttachmentParameteriv =>
    forward ["target", "attachment", "pname", "params"] .glGetFramebufferAttachmentParameteriv
      ["target", "attachment", "pname", "params"]
  | .glGetIntegerv => forward ["pname", "params"] .glGetIntegerv ["pname", "params"]
  | .glGetProgramiv =>
    forward ["program", "pname", "params"] .glGetProgramiv ["program", "pname", "params"]
  | .glGetProgramInfoLog =>
    forward ["program", "bufsize", "length", "infolog"] .glGetProgramInfoLog
      ["program", "bufsize", "length", "infolog"]
  | .glGetRenderbufferParameteriv =>
    forward ["target", "pname", "params"] .glGetRenderbufferParameteriv
      ["target", "pname", "params"]
  | .glGetShaderiv =>
    forward ["shader", "pname", "params"] .glGetShaderiv ["shader", "pname", "params"]
  | .glGetShaderInfoLog =>
    forward ["shader", "bufsize", "length", "infolog"] .glGetShaderInfoLog
      ["shader", "bufsize", "length", "infolog"]
  | .glGetShaderPrecisionFormat =>
    forward ["shadertype", "precisiontype", "range", "precision"] .glGetShaderPrecisionFormat
      ["shadertype", "precisiontype", "range", "precision"]
  | .glGetShaderSource =>
    forward ["shader", "bufsize", "length", "source"] .glGetShaderSource
      ["shader", "bufsize", "length", "source"]
  | .glGetString => forward ["name"] .glGetString ["name"]
  | .glGetTexParameterfv =>
    forward ["target", "pname", "params"] .glGetTexParameterfv ["target", "pname", "params"]
  | .glGetTexParameteriv =>
    forward ["target", "pname", "params"] .glGetTexParameteriv ["target", "pname", "params"]
  | .glGetUniformfv =>
    forward ["program", "location", "params"] .glGetUniformfv ["program", "location", "params"]
  | .glGetUniformiv =>
    forward ["program", "location", "params"] .glGetUniformiv ["program", "location", "params"]
  | .glGetUniformLocation => forward ["program", "name"] .glGetUniformLocation ["program", "name"]
  | .glGetVertexAttribfv =>
    forward ["index", "pname", "params"] .glGetVertexAttribfv ["index", "pname", "params"]
  | .glGetVertexAttribiv =>
    forward ["index", "pname", "params"] .glGetVertexAttribiv ["index", "pname", "params"]
  | .glGetVertexAttribPointerv =>
    forward ["index", "pname", "pointer"] .glGetVertexAttribPointerv ["index", "pname", "pointer"]
  | .glHint => forward ["target", "mode"] .glHint ["target", "mode"]
  | .glIsBuffer => forward ["buffer"] .glIsBuffer ["buffer"]
  | .glIsEnabled => forward ["cap"] .glIsEnabled ["cap"]
  | .glIsFramebuffer => forward ["framebuffer"] .glIsFramebuffer ["framebuffer"]
  | .glIsProgram => forward ["program"] .glIsProgram ["program"]
  | .glIsRenderbuffer => forward ["renderbuffer"] .glIsRenderbuffer ["renderbuffer"]
  | .glIsShader => forward ["shader"] .glIsShader ["shader"]
  | .glIsTexture => forward ["texture"] .glIsTexture ["texture"]
  | .glLinkProgram => forward ["program"] .glLinkProgram ["program"]
  | .glPixelStorei => forward ["pname", "param"] .glPixelStorei ["pname", "param"]
  | .glReadPixels =>
    forward ["x", "y", "width", "height", "format", "type", "pixels"] .glReadPixels
      ["x", "y", "width", "height", "format", "type", "pixels"]
  | .glReleaseShaderCompiler => forward [] .glReleaseShaderCompiler []
  | .glRenderbufferStorage =>
    forward ["target", "internalformat", "width", "height"] .glRenderbufferStorage
      ["target", "internalformat", "width", "height"]
  | .glScissor => forward ["x", "y", "width", "height"] .glScissor ["x", "y", "width", "height"]
  | .glShaderBinary =>
    forward ["n", "shaders", "binaryformat", "binary", "length"] .glShaderBinary
      ["n", "shaders", "binaryformat", "binary", "length"]
  | .glShaderSource =>
    forward ["shader", "count", "string", "length"] .glShaderSource
      ["shader", "count", "string", "length"]
  | .glStencilFunc => forward ["func", "ref", "mask"] .glStencilFunc ["func", "ref", "mask"]
  | .glStencilFuncSeparate =>
    forward ["face", "func", "ref", "mask"] .glStencilFuncSeparate ["face", "func", "ref", "mask"]
  | .glStencilMask => forward ["mask"] .glStencilMask ["mask"]
  | .glStencilMaskSeparate => forward ["face", "mask"] .glStencilMaskSeparate ["face", "mask"]
  | .glStencilOp => forward ["fail", "zfail", "zpass"] .glStencilOp ["fail", "zfail", "zpass"]
  | .glStencilOpSeparate =>
    forward ["face", "fail", "zfail", "zpass"] .glStencilOpSeparate
      ["face", "fail", "zfail", "zpass"]
  | .glTexImage2D =>
    forward
      ["target", "level", "internalformat", "width", "height", "border", "format", "type",
      "pixels"]
      .glTexImage2D
      ["target", "level", "internalformat", "width", "height", "border", "format", "type",
      "pixels"]
  | .glTexParameterfv =>
    forward ["target", "pname", "params"] .glTexParameterfv ["target", "pname", "params"]
  | .glTexParameteri =>
    forward ["target", "pname", "param"] .glTexParameteri ["target", "pname", "param"]
  | .glTexParameteriv =>
    forward ["target", "pname", "params"] .glTexParameteriv ["target", "pname", "params"]
  | .glTexSubImage2D =>
    forward
      ["target", "level", "xoffset", "yoffset", "width", "height", "format", "type", "pixels"]
      .glTexSubImage2D
      ["target", "level", "xoffset", "yoffset", "width", "height", "format", "type", "pixels"]
  | .glUniform1fv => forward ["location", "count", "v"] .glUniform1fv ["location", "count", "v"]
  | .glUniform1i => forward ["location", "x"] .glUniform1i ["location", "x"]
  | .glUniform1iv => forward ["location", "count", "v"] .glUniform1iv ["location", "count", "v"]
  | .glUniform2fv => forward ["location", "count", "v"] .glUniform2fv ["location", "count", "v"]
  | .glUniform2i => forward ["location", "x", "y"] .glUniform2i ["location", "x", "y"]
  | .glUniform2iv => forward ["location", "count", "v"] .glUniform2iv ["location", "count", "v"]
  | .glUniform3fv => forward ["location", "count", "v"] .glUniform3fv ["location", "count", "v"]
  | .glUniform3i => forward ["location", "x", "y", "z"] .glUniform3i ["location", "x", "y", "z"]
  | .glUniform3iv => forward ["location", "count", "v"] .glUniform3iv ["location", "count", "v"]
  | .glUniform4fv => forward ["location", "count", "v"] .glUniform4fv ["location", "count", "v"]
  | .glUniform4i =>
    forward ["location", "x", "y", "z", "w"] .glUniform4i ["location", "x", "y", "z", "w"]
  | .glUniform4iv => forward ["location", "count", "v"] .glUniform4iv ["location", "count", "v"]
  | .glUniformMatrix2fv =>
    forward ["location", "count", "transpose", "value"] .glUniformMatrix2fv
      ["location", "count", "transpose", "value"]
  | .glUniformMatrix3fv =>
    forward ["location", "count", "transpose", "value"] .glUniformMatrix3fv
      ["location", "count", "transpose", "value"]
  | .glUniformMatrix4fv =>
    forward ["location", "count", "transpose", "value"] .glUniformMatrix4fv
      ["location", "count", "transpose", "value"]
  | .glUseProgram => forward ["program"] .glUseProgram ["program"]
  | .glValidateProgram => forward ["program"] .glValidateProgram ["program"]
  | .glVertexAttrib1fv => forward ["indx", "values"] .glVertexAttrib1fv ["indx", "values"]
  | .glVertexAttrib2fv => forward ["indx", "values"] .glVertexAttrib2fv ["indx", "values"]
  | .glVertexAttrib3fv => forward ["indx", "values"] .glVertexAttrib3fv ["indx", "values"]
  | .glVertexAttrib4fv => forward ["indx", "values"] .glVertexAttrib4fv ["indx", "values"]
  | .glVertexAttribPointer =>
    forward ["indx", "size", "type", "normalized", "stride", "ptr"] .glVertexAttribPointer
      ["indx", "size", "type", "normalized", "stride", "ptr"]
  | .glViewport => forward ["x", "y", "width", "height"] .glViewport ["x", "y", "width", "height"]

theorem callee_function (sym : Gl) : (function sym).callee = sym := by
  cases sym <;> rfl

theorem nodup_params (sym : Gl) : (function sym).params.Nodup := by
  cases sym <;> decide

theorem args_function {sym : Gl} (h : sym ≠ .glEGLImageTargetTexture2DOES) :
    (function sym).args = (function sym).params.map .param := by
  cases sym <;> first | rfl | exact absurd rfl h

theorem mem_gles2Load {sym : Gl} (h : sym ≠ .glReadPixels) : sym ∈ gles2Load := by
  cases sym <;> first | decide | exact absurd rfl h

theorem glReadPixels_not_mem_gles2Load : .glReadPixels ∉ gles2Load := by
  decide +kernel

theorem glEGLImageTargetTexture2DOES_not_mem_gles2Idload :
    .glEGLImageTargetTexture2DOES ∉ gles2Idload := by
  decide +kernel

end FakeLibc.GlesTables
